import Mathlib.Algebra.Order.Group.Defs
import Mathlib.Algebra.Order.Sub.Basic
import Mathlib.Data.List.Induction

/-! # Sliding windows

Requests arrive in the order of their times, each for a key, and each is granted or not. The
exact limiter grants a request when fewer than `capacity` requests for its key were granted in
the window that ends with it.
-/

namespace SlidingWindow

/-- A request for a key. -/
structure Request (κ τ : Type*) where
  key : κ
  time : τ

/-- A request and whether it was granted. -/
structure Entry (κ τ : Type*) extends Request κ τ where
  granted : Bool

variable {κ τ : Type*} [DecidableEq κ]

/-- The times at which `k` was granted. -/
def grantTimes (k : κ) (entries : List (Entry κ τ)) : List τ :=
  (entries.filter fun e => e.granted ∧ e.key = k).map (·.time)

@[simp] theorem grantTimes_append (k : κ) (past entries : List (Entry κ τ)) :
    grantTimes k (past ++ entries) = grantTimes k past ++ grantTimes k entries := by
  simp [grantTimes]

theorem grantTimes_singleton (k : κ) (e : Entry κ τ) :
    grantTimes k [e] = if e.granted = true ∧ e.key = k then [e.time] else [] := by
  unfold grantTimes
  split_ifs with hgrant
  · rw [List.filter_cons_of_pos (by simpa using hgrant)]
    rfl
  · rw [List.filter_cons_of_neg (by simpa using hgrant)]
    rfl

theorem mem_grantTimes {k : κ} {entries : List (Entry κ τ)} {t : τ} :
    t ∈ grantTimes k entries ↔ ∃ e ∈ entries, (e.granted = true ∧ e.key = k) ∧ e.time = t := by
  simp [grantTimes, and_assoc]

variable [LinearOrder τ]

/-- How often `k` was granted in `(lo, hi]`. -/
def grantsIn (k : κ) (lo hi : τ) (entries : List (Entry κ τ)) : ℕ :=
  (grantTimes k entries).countP fun t => lo < t ∧ t ≤ hi

/-- Entries in the order of their times. -/
def Ordered (entries : List (Entry κ τ)) : Prop :=
  entries.Pairwise fun e e' => e.time ≤ e'.time

theorem Ordered.grantTimes {entries : List (Entry κ τ)} (hordered : Ordered entries) (k : κ) :
    (grantTimes k entries).Pairwise (· ≤ ·) :=
  List.pairwise_map.mpr (hordered.filter _)

theorem grantsIn_append (k : κ) (lo hi : τ) (past entries : List (Entry κ τ)) :
    grantsIn k lo hi (past ++ entries) = grantsIn k lo hi past + grantsIn k lo hi entries := by
  simp [grantsIn]

variable [AddCommGroup τ]

/-- The exact limiter, after the entries of the past. -/
def decided (capacity : ℕ) (w : τ) : List (Entry κ τ) → List (Request κ τ) → List (Entry κ τ)
  | _, [] => []
  | past, r :: rest =>
      let e : Entry κ τ := ⟨r, decide (grantsIn r.key (r.time - w) r.time past < capacity)⟩
      e :: decided capacity w (past ++ [e]) rest

variable {capacity : ℕ} {w : τ} {past : List (Entry κ τ)}

theorem decided_append (past : List (Entry κ τ)) (requests rest : List (Request κ τ)) :
    decided capacity w past (requests ++ rest) =
      decided capacity w past requests ++
        decided capacity w (past ++ decided capacity w past requests) rest := by
  induction requests generalizing past with
  | nil => simp [decided]
  | cons r requests ih => simp [decided, ih]

/-- It answers all requests, and in their order. -/
theorem map_decided (past : List (Entry κ τ)) (requests : List (Request κ τ)) :
    (decided capacity w past requests).map (·.toRequest) = requests := by
  induction requests generalizing past with
  | nil => rfl
  | cons r requests ih => rw [decided, List.map_cons, ih]

theorem length_decided (past : List (Entry κ τ)) (requests : List (Request κ τ)) :
    (decided capacity w past requests).length = requests.length := by
  rw [← List.length_map (·.toRequest), map_decided]

theorem ordered_decided {requests : List (Request κ τ)}
    (hordered : requests.Pairwise fun r r' => r.time ≤ r'.time) :
    Ordered (decided capacity w past requests) := by
  rw [← @map_decided _ _ _ _ _ capacity w past requests, List.pairwise_map] at hordered
  exact hordered

/-- What decides each entry. -/
theorem granted_of_decided {requests : List (Request κ τ)} {earlier later : List (Entry κ τ)}
    {e : Entry κ τ} (heq : decided capacity w past requests = earlier ++ e :: later) :
    e.granted = true ↔ grantsIn e.key (e.time - w) e.time (past ++ earlier) < capacity := by
  induction requests generalizing past earlier with
  | nil => simp [decided] at heq
  | cons r requests ih =>
      cases earlier with
      | nil =>
          obtain ⟨rfl, -⟩ := List.cons.inj heq
          simp
      | cons first earlier =>
          obtain ⟨hfirst, hrest⟩ := List.cons.inj heq
          have := ih hrest
          rwa [hfirst, List.append_assoc] at this

/-- Only the grants of a key decide what comes of it. -/
theorem decided_congr {k : κ} {past past' : List (Entry κ τ)} (requests : List (Request κ τ))
    (heq : grantTimes k past = grantTimes k past') :
    (decided capacity w past requests).filter (fun e => e.key = k) =
      (decided capacity w past' requests).filter fun e => e.key = k := by
  induction requests generalizing past past' with
  | nil => rfl
  | cons r requests ih =>
      simp only [decided]
      by_cases hkey : r.key = k
      · have hsame : grantsIn r.key (r.time - w) r.time past =
            grantsIn r.key (r.time - w) r.time past' := by
          rw [grantsIn, grantsIn, hkey, heq]
        rw [hsame, List.filter_cons_of_pos (by simpa using hkey),
          List.filter_cons_of_pos (by simpa using hkey)]
        exact congrArg (List.cons _) (ih (by rw [grantTimes_append, grantTimes_append, heq]))
      · rw [List.filter_cons_of_neg (by simpa using hkey),
          List.filter_cons_of_neg (by simpa using hkey)]
        refine ih ?_
        rw [grantTimes_append, grantTimes_append, grantTimes_singleton, grantTimes_singleton,
          if_neg (fun h => hkey h.2), if_neg (fun h => hkey h.2), heq]

/-- A request that is denied, or for another key, makes no difference to `k`. -/
theorem filter_decided_of_denied {k : κ} {before after : List (Request κ τ)} {r : Request κ τ}
    {e : Entry κ τ} {n : ℕ} (hn : before.length = n)
    (he : (decided capacity w past (before ++ r :: after))[n]? = some e)
    (hdenied : e.granted = false ∨ e.key ≠ k) :
    ((decided capacity w past (before ++ r :: after)).drop (n + 1)).filter (fun e => e.key = k) =
      ((decided capacity w past (before ++ after)).drop n).filter fun e => e.key = k := by
  subst hn
  have hlength : (decided capacity w past before).length = before.length := length_decided _ _
  rw [decided_append, decided, List.getElem?_append_right hlength.le, hlength, Nat.sub_self,
    List.getElem?_cons_zero, Option.some.injEq] at he
  rw [decided_append, decided_append, decided, ← List.drop_drop, List.drop_left' hlength,
    List.drop_left' hlength]
  rw [he, List.drop_one, List.tail_cons]
  refine decided_congr after ?_
  have hnone : ¬ (e.granted = true ∧ e.key = k) := by
    rintro ⟨hgranted, hkey⟩
    exact hdenied.elim (fun hfalse => by simp [hfalse] at hgranted) fun hne => hne hkey
  rw [grantTimes_append, grantTimes_singleton, if_neg hnone, List.append_nil]

variable [IsOrderedAddMonoid τ]

/-- In no window are there more than `capacity` grants. -/
theorem grantsIn_le {entries : List (Entry κ τ)} (hordered : Ordered entries)
    (hexact : ∀ earlier e later, entries = earlier ++ e :: later →
      e.granted = true → grantsIn e.key (e.time - w) e.time earlier < capacity) (k : κ) (s : τ) :
    grantsIn k s (s + w) entries ≤ capacity := by
  induction entries using List.reverseRecOn with
  | nil => exact Nat.zero_le _
  | append_singleton earlier e ih =>
      obtain ⟨hearlier, -, hle⟩ := List.pairwise_append.mp hordered
      have hfront := ih hearlier fun front e' later heq =>
        hexact front e' (later ++ [e]) (by rw [heq]; simp)
      rw [grantsIn_append]
      by_cases hcounts : (e.granted = true ∧ e.key = k) ∧ s < e.time ∧ e.time ≤ s + w
      · obtain ⟨⟨hgranted, rfl⟩, hlo, hhi⟩ := hcounts
        -- The window that ends with the last grant begins no later, and has room for it.
        have hwider : grantsIn e.key s (s + w) earlier ≤
            grantsIn e.key (e.time - w) e.time earlier := by
          refine List.countP_mono_left fun t ht hin => ?_
          obtain ⟨e', he', -, rfl⟩ := mem_grantTimes.mp ht
          simp only [decide_eq_true_eq] at hin ⊢
          exact ⟨(sub_le_iff_le_add.mpr hhi).trans_lt hin.1, hle e' he' e List.mem_cons_self⟩
        have hroom := hexact earlier e [] rfl hgranted
        have hlast : grantsIn e.key s (s + w) [e] = 1 := by
          rw [grantsIn, grantTimes_singleton, if_pos ⟨hgranted, rfl⟩]
          simp [hlo, hhi]
        omega
      · have hlast : grantsIn k s (s + w) [e] = 0 := by
          rw [grantsIn, grantTimes_singleton]
          split_ifs with hgrant
          · simp only [List.countP_singleton, decide_eq_true_eq]
            exact if_neg fun hin => hcounts ⟨hgrant, hin⟩
          · rfl
        omega

end SlidingWindow
