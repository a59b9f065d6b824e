import DeathRoll.Ratelimit.SlidingWindow
import Mathlib.Algebra.Order.Ring.Rat
import Mathlib.Logic.Function.Basic
import Mathlib.Tactic.NormNum

/-! # The rate limiter of the commands

`deathroll_core/ratelimit`, with exact times. A bucket keeps the grants of its key that were
still in the window at the key's last call, so the limiter is the exact one.
-/

namespace DeathRoll

open SlidingWindow

/-- `FixedWindowLimiter`. -/
structure FixedWindowLimiter (κ : Type) where
  capacity : ℕ
  window : ℚ
  capacity_pos : 0 < capacity
  window_pos : 0 < window
  buckets : κ → Option (List ℚ)

/-- `acquire(key, now=now)` when the clock shows `monotonic`. -/
structure AcquireCall (κ : Type) where
  key : κ
  now : Option ℚ
  monotonic : ℚ

variable {κ : Type}

def AcquireCall.request (call : AcquireCall κ) : Request κ ℚ :=
  ⟨call.key, call.now.getD call.monotonic⟩

/-- `while bucket and bucket[0] <= cutoff: bucket.popleft()` -/
def prune (cutoff : ℚ) : List ℚ → List ℚ
  | [] => []
  | t :: bucket => if t ≤ cutoff then prune cutoff bucket else t :: bucket

namespace FixedWindowLimiter

/-- `__init__`. -/
def new (capacity : ℤ) (windowSeconds : ℚ) : Except String (FixedWindowLimiter κ) :=
  if hcapacity : capacity ≤ 0 then .error "capacity must be > 0"
  else if hwindow : windowSeconds ≤ 0 then .error "window_seconds must be > 0"
  else .ok
    { capacity := capacity.toNat
      window := windowSeconds
      capacity_pos := by omega
      window_pos := not_le.mp hwindow
      buckets := fun _ => none }

variable [DecidableEq κ]

def acquire (limiter : FixedWindowLimiter κ) (call : AcquireCall κ) :
    Bool × FixedWindowLimiter κ :=
  let now := call.now.getD call.monotonic
  let bucket := (limiter.buckets call.key).getD []
  let cutoff := now - limiter.window
  let bucket := prune cutoff bucket
  if limiter.capacity ≤ bucket.length then
    (false, { limiter with buckets := Function.update limiter.buckets call.key (some bucket) })
  else
    let bucket := bucket ++ [now]
    (true, { limiter with buckets := Function.update limiter.buckets call.key (some bucket) })

/-- The calls and what they return. -/
def outcomes (limiter : FixedWindowLimiter κ) : List (AcquireCall κ) → List (Entry κ ℚ)
  | [] => []
  | call :: calls =>
      let (granted, limiter') := limiter.acquire call
      ⟨call.request, granted⟩ :: outcomes limiter' calls

end FixedWindowLimiter

/-! ## What a bucket keeps -/

theorem prune_eq {bucket : List ℚ} (hsorted : bucket.Pairwise (· ≤ ·)) (cutoff : ℚ) :
    prune cutoff bucket = bucket.filter (cutoff < ·) := by
  induction bucket with
  | nil => rfl
  | cons t bucket ih =>
      obtain ⟨hfirst, hsorted⟩ := List.pairwise_cons.mp hsorted
      rw [prune]
      split_ifs with hold
      · rw [ih hsorted, List.filter_cons_of_neg (by simpa using hold)]
      · refine (List.filter_eq_self.mpr fun u hu => ?_).symm
        rcases List.mem_cons.mp hu with rfl | hu
        · simpa using hold
        · exact decide_eq_true ((not_le.mp hold).trans_le (hfirst u hu))

variable [DecidableEq κ]

/-- At time `t` the limiter keeps, of what it has granted, at least what is still in the
window. -/
structure Tracks (limiter : FixedWindowLimiter κ) (past : List (Entry κ ℚ)) (t : ℚ) : Prop where
  ordered : Ordered past
  until_now : ∀ e ∈ past, e.time ≤ t
  kept : ∀ k, ∃ cut ≤ t - limiter.window,
    (limiter.buckets k).getD [] = (grantTimes k past).filter (cut < ·)

variable {limiter : FixedWindowLimiter κ} {past : List (Entry κ ℚ)} {t : ℚ} {call : AcquireCall κ}

namespace Tracks

theorem times_le (htracks : Tracks limiter past t) (k : κ) : ∀ u ∈ grantTimes k past, u ≤ t := by
  intro u hu
  obtain ⟨e, he, -, rfl⟩ := mem_grantTimes.mp hu
  exact htracks.until_now e he

/-- The bucket that a call finds once it has pruned. -/
theorem pruned (htracks : Tracks limiter past t) (hle : t ≤ call.request.time) (k : κ) :
    prune (call.request.time - limiter.window) ((limiter.buckets k).getD []) =
      (grantTimes k past).filter (call.request.time - limiter.window < ·) := by
  obtain ⟨cut, hcut, hkept⟩ := htracks.kept k
  rw [hkept, prune_eq ((htracks.ordered.grantTimes k).filter _), List.filter_filter]
  refine List.filter_congr fun u _ => ?_
  rw [← Bool.decide_and]
  refine decide_eq_decide.mpr ⟨And.left, fun hlt => ⟨hlt, ?_⟩⟩
  exact (hcut.trans (sub_le_sub_right hle _)).trans_lt hlt

theorem length_pruned (htracks : Tracks limiter past t) (hle : t ≤ call.request.time) (k : κ) :
    (prune (call.request.time - limiter.window) ((limiter.buckets k).getD [])).length =
      grantsIn k (call.request.time - limiter.window) call.request.time past := by
  rw [htracks.pruned hle, grantsIn, ← List.countP_eq_length_filter]
  refine List.countP_congr fun u hu => ?_
  have := (htracks.times_le k u hu).trans hle
  simp [this]

/-- A call decides as the exact limiter does. -/
theorem granted_eq (htracks : Tracks limiter past t) (hle : t ≤ call.request.time) :
    (limiter.acquire call).1 =
      decide (grantsIn call.key (call.request.time - limiter.window) call.request.time past <
        limiter.capacity) := by
  have hlength := htracks.length_pruned hle call.key
  simp only [FixedWindowLimiter.acquire]
  change (if limiter.capacity ≤ (prune (call.request.time - limiter.window)
    ((limiter.buckets call.key).getD [])).length then _ else _ : Bool × _).1 = _
  rw [hlength]
  split_ifs with hfull
  · exact (decide_eq_false (not_lt.mpr hfull)).symm
  · exact (decide_eq_true (not_le.mp hfull)).symm

/-- A call leaves in its bucket what is still in the window and, if granted, its own time. -/
theorem bucket_acquire (htracks : Tracks limiter past t) (hle : t ≤ call.request.time) :
    ((limiter.acquire call).2.buckets call.key).getD [] =
      (grantTimes call.key past).filter (call.request.time - limiter.window < ·) ++
        if (limiter.acquire call).1 then [call.request.time] else [] := by
  rw [← htracks.pruned hle call.key]
  by_cases hfull : limiter.capacity ≤ (prune (call.request.time - limiter.window)
      ((limiter.buckets call.key).getD [])).length
  · have hacquire : limiter.acquire call = (false, _) := if_pos hfull
    simp [hacquire, AcquireCall.request]
  · have hacquire : limiter.acquire call = (true, _) := if_neg hfull
    simp [hacquire, AcquireCall.request]

theorem bucket_acquire_ne (limiter : FixedWindowLimiter κ) {call : AcquireCall κ} {k : κ}
    (hkey : k ≠ call.key) : (limiter.acquire call).2.buckets k = limiter.buckets k := by
  simp only [FixedWindowLimiter.acquire]
  split_ifs with hfull
  · exact Function.update_of_ne hkey _ _
  · exact Function.update_of_ne hkey _ _

theorem acquire_limits (limiter : FixedWindowLimiter κ) (call : AcquireCall κ) :
    (limiter.acquire call).2.window = limiter.window ∧
      (limiter.acquire call).2.capacity = limiter.capacity := by
  simp only [FixedWindowLimiter.acquire]
  split_ifs
  · exact ⟨rfl, rfl⟩
  · exact ⟨rfl, rfl⟩

theorem acquire (htracks : Tracks limiter past t) (hle : t ≤ call.request.time) :
    Tracks (limiter.acquire call).2 (past ++ [⟨call.request, (limiter.acquire call).1⟩])
      call.request.time := by
  have hpast : ∀ e ∈ past, e.time ≤ call.request.time :=
    fun e he => (htracks.until_now e he).trans hle
  refine ⟨?_, ?_, fun k => ?_⟩
  · refine List.pairwise_append.mpr ⟨htracks.ordered, List.pairwise_singleton _ _, ?_⟩
    intro e he e' he'
    obtain rfl := List.mem_singleton.mp he'
    exact hpast e he
  · intro e he
    rcases List.mem_append.mp he with he | he
    · exact hpast e he
    · obtain rfl := List.mem_singleton.mp he
      exact le_rfl
  · rw [(acquire_limits limiter call).1, grantTimes_append, grantTimes_singleton]
    by_cases hkey : k = call.key
    · subst hkey
      refine ⟨_, le_rfl, ?_⟩
      rw [htracks.bucket_acquire hle, List.filter_append]
      have hinside : call.request.time - limiter.window < call.request.time :=
        sub_lt_self _ limiter.window_pos
      cases hgranted : (limiter.acquire call).1 with
      | false => simp
      | true =>
          rw [if_pos rfl, if_pos ⟨rfl, rfl⟩, List.filter_cons_of_pos (by simpa using hinside)]
          rfl
    · obtain ⟨cut, hcut, hkept⟩ := htracks.kept k
      refine ⟨cut, hcut.trans (sub_le_sub_right hle _), ?_⟩
      rw [bucket_acquire_ne limiter hkey, hkept, if_neg fun h => hkey h.2.symm, List.append_nil]

theorem later (htracks : Tracks limiter past t) {t' : ℚ} (hle : t ≤ t') :
    Tracks limiter past t' where
  ordered := htracks.ordered
  until_now := fun e he => (htracks.until_now e he).trans hle
  kept := fun k =>
    let ⟨cut, hcut, hkept⟩ := htracks.kept k
    ⟨cut, hcut.trans (sub_le_sub_right hle _), hkept⟩

/-- With a capacity of one, a grant comes a whole window after the last. -/
theorem window_le_of_granted (htracks : Tracks limiter past t) (hle : t ≤ call.request.time)
    (hcapacity : limiter.capacity = 1) (hgranted : (limiter.acquire call).1 = true) {u : ℚ}
    (hu : u ∈ grantTimes call.key past) : u + limiter.window ≤ call.request.time := by
  rw [htracks.granted_eq hle, decide_eq_true_eq, hcapacity, Nat.lt_one_iff, grantsIn,
    List.countP_eq_zero] at hgranted
  by_contra hlate
  refine hgranted u hu (decide_eq_true ⟨?_, (htracks.times_le _ u hu).trans hle⟩)
  exact sub_lt_iff_lt_add.mpr (not_le.mp hlate)

end Tracks

/-- After a past that it tracks, the limiter is the exact one. -/
theorem outcomes_eq (htracks : Tracks limiter past t) {calls : List (AcquireCall κ)}
    (hfrom : ∀ call ∈ calls, t ≤ call.request.time)
    (hordered : calls.Pairwise fun call call' => call.request.time ≤ call'.request.time) :
    limiter.outcomes calls =
      decided limiter.capacity limiter.window past (calls.map (·.request)) := by
  induction calls generalizing limiter past t with
  | nil => rfl
  | cons call calls ih =>
      obtain ⟨hlater, hordered⟩ := List.pairwise_cons.mp hordered
      have hle := hfrom call List.mem_cons_self
      have hrest := ih (htracks.acquire hle) hlater hordered
      obtain ⟨hwindow, hcapacity⟩ := Tracks.acquire_limits limiter call
      rw [hwindow, hcapacity, htracks.granted_eq hle] at hrest
      rw [FixedWindowLimiter.outcomes, List.map_cons, decided]
      dsimp only
      rw [htracks.granted_eq hle, hrest]
      rfl

/-! ## Exactness -/

/-- What an exact limiter does: the window of a call decides it, no window has more than
`capacity` grants, and neither a denied call nor one for another key matters to `k`. -/
structure ExactLimiter (capacity : ℤ) (windowSeconds : ℚ) (limiter : FixedWindowLimiter κ)
    (calls : List (AcquireCall κ)) : Prop where
  granted_iff : ∀ earlier e later, limiter.outcomes calls = earlier ++ e :: later →
    (e.granted = true ↔ grantsIn e.key (e.time - windowSeconds) e.time earlier < capacity)
  grantsIn_le : ∀ k s, grantsIn k s (s + windowSeconds) (limiter.outcomes calls) ≤ capacity
  unaffected : ∀ k before call after e, calls = before ++ call :: after →
    (limiter.outcomes calls)[before.length]? = some e → e.granted = false ∨ e.key ≠ k →
    ((limiter.outcomes calls).drop (before.length + 1)).filter (fun e => e.key = k) =
      ((limiter.outcomes (before ++ after)).drop before.length).filter fun e => e.key = k

theorem tracks_new {capacity : ℤ} {windowSeconds : ℚ} (hcapacity : 1 ≤ capacity)
    (hwindow : 0 < windowSeconds) :
    ∃ limiter : FixedWindowLimiter κ, FixedWindowLimiter.new capacity windowSeconds = .ok limiter ∧
      limiter.capacity = capacity ∧ limiter.window = windowSeconds ∧ ∀ t, Tracks limiter [] t := by
  refine ⟨_, by rw [FixedWindowLimiter.new, dif_neg (by omega), dif_neg (not_le.mpr hwindow)], ?_,
    rfl, fun t => ⟨.nil, by simp, fun k => ⟨_, le_rfl, rfl⟩⟩⟩
  exact Int.toNat_of_nonneg (by omega)

/-- The limiter decides exactly by the sliding window. -/
theorem acquires_exactly {capacity : ℤ} {windowSeconds : ℚ} (hcapacity : 1 ≤ capacity)
    (hwindow : 0 < windowSeconds) :
    ∃ limiter : FixedWindowLimiter κ, FixedWindowLimiter.new capacity windowSeconds = .ok limiter ∧
      ∀ calls : List (AcquireCall κ),
        calls.Pairwise (fun call call' => call.request.time ≤ call'.request.time) →
          ExactLimiter capacity windowSeconds limiter calls := by
  obtain ⟨limiter, hnew, hcap, rfl, htracks⟩ := @tracks_new κ _ _ _ hcapacity hwindow
  refine ⟨limiter, hnew, fun calls hordered => ?_⟩
  have houtcomes : ∀ calls : List (AcquireCall κ),
      calls.Pairwise (fun call call' => call.request.time ≤ call'.request.time) →
        limiter.outcomes calls =
          decided limiter.capacity limiter.window [] (calls.map (·.request)) := by
    intro calls hordered
    cases calls with
    | nil => rfl
    | cons call calls =>
        refine outcomes_eq (htracks call.request.time) (fun call' hcall' => ?_) hordered
        rcases List.mem_cons.mp hcall' with rfl | hcall'
        · exact le_rfl
        · exact (List.pairwise_cons.mp hordered).1 call' hcall'
  have hexact : ∀ earlier e later, limiter.outcomes calls = earlier ++ e :: later →
      (e.granted = true ↔
        grantsIn e.key (e.time - limiter.window) e.time earlier < limiter.capacity) := by
    intro earlier e later heq
    rw [houtcomes calls hordered] at heq
    exact granted_of_decided heq
  refine ⟨fun earlier e later heq => ?_, fun k s => ?_, fun k before call after e heq he hdenied => ?_⟩
  · rw [hexact earlier e later heq]
    omega
  · have hsorted : Ordered (limiter.outcomes calls) := by
      rw [houtcomes calls hordered]
      exact ordered_decided (List.pairwise_map.mpr hordered)
    have := SlidingWindow.grantsIn_le hsorted
      (fun earlier e later heq => (hexact earlier e later heq).mp) k s
    omega
  · subst heq
    have hshorter : (before ++ after).Sublist (before ++ call :: after) :=
      (List.sublist_cons_self call after).append_left before
    rw [houtcomes _ hordered, List.map_append, List.map_cons] at he ⊢
    rw [houtcomes _ (hordered.sublist hshorter), List.map_append]
    exact filter_decided_of_denied (by rw [List.length_map]) he hdenied

/-- Calls at the end of the first window and just after it. -/
def windowCalls : List (AcquireCall Unit) := [⟨(), some 0, 0⟩, ⟨(), some 60, 0⟩, ⟨(), none, 61⟩]

theorem acquires_exactly_window :
    ∃ limiter : FixedWindowLimiter Unit, FixedWindowLimiter.new 1 60 = .ok limiter ∧
      ExactLimiter 1 60 limiter windowCalls := by
  obtain ⟨limiter, hnew, hexact⟩ :=
    @acquires_exactly Unit _ 1 60 le_rfl (by norm_num)
  refine ⟨limiter, hnew, hexact windowCalls ?_⟩
  norm_num [windowCalls, AcquireCall.request]

example :
    (FixedWindowLimiter.new 1 60).map (fun limiter => (limiter.outcomes windowCalls).map (·.granted)) =
      .ok [true, true, false] := by
  decide +kernel

end DeathRoll
