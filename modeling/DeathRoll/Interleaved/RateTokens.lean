import DeathRoll.Luck.Helpers
import DeathRoll.Relational.Serial

/-! # Rate tokens under concurrency

`luck.consume_rate_token`, statement by statement. A bucket counts every commit once, whatever
the interleaving. The bucket of a call is that of its time rounded to seconds, so the calls of
the last half second of a window count with the next window.
-/

namespace DeathRoll.Interleaved

open Relational Script Concurrent

/-- A call and its `NOW()`. -/
structure RateCall where
  now : Timestamp
  pDiscordId : Option Int
  pScope : Option String
  pWindowS : Option Int
  pMaxCount : Option Int
deriving DecidableEq

/-- The counts of `luck.rate_limit_entries`, by the `UNIQUE` key. -/
abbrev RateCount : RateLimitKey → Type := fun _ => Int

abbrev RateScript := Script RateCount DbError

/-- `ON CONFLICT (discord_id, scope, bucket_start) DO UPDATE SET count = count + 1
RETURNING count`. -/
def incrementCount (key : RateLimitKey) : RateScript (Option Int) := do
  match ← lock key with
  | none => return none
  | some count =>
      store key (count + 1)
      return some (count + 1)

def consumeRateToken (call : RateCall) : RateScript (Option Bool) := do
  raiseIf (IsLt call.pWindowS (some 1) ∨ IsLt call.pMaxCount (some 1))
    (.invalidRateLimitArgs call.pWindowS call.pMaxCount)
  let discordId ← require (.notNullViolation "discord_id") call.pDiscordId
  let scope ← require (.notNullViolation "scope") call.pScope
  let windowS ← require (.notNullViolation "bucket_start") call.pWindowS
  let key : RateLimitKey := { discordId, scope, bucketStart := bucketStart call.now windowS }
  let added ← add key (1 : Int)
  let vCount ← if added = true then pure (some 1) else incrementCount key
  return vCount.bind fun count => call.pMaxCount.map fun maxCount => count ≤ maxCount

/-! ## One call -/

namespace RateCall

/-- The row that a call counts in. -/
def key (call : RateCall) : Option RateLimitKey := do
  let discordId ← call.pDiscordId
  let scope ← call.pScope
  let windowS ← call.pWindowS
  return { discordId, scope, bucketStart := bucketStart call.now windowS }

/-- The call finds `count` in its row. -/
def allowed (call : RateCall) (count : Int) : Option Bool :=
  call.pMaxCount.map fun maxCount => count + 1 ≤ maxCount

end RateCall

def rateSchema : Schema RateCount where
  keeps _ _ _ := True
  refs _ _ := ∅
  refl _ _ := trivial
  trans _ _ _ _ _ _ := trivial

/-- A call that commits counts itself. -/
def Counts (call : RateCall) (before : Rows RateCount) (result : Option Bool)
    (after : Rows RateCount) : Prop :=
  ∃ key, call.key = some key ∧ result = call.allowed ((before key).getD 0) ∧
    after = Function.update before key (some ((before key).getD 0 + 1))

theorem post_incrementCount {key : RateLimitKey} {known : Set RateLimitKey} {rows : Rows RateCount}
    {Q : Option Int → Set RateLimitKey → Rows RateCount → Prop} (hpresent : key ∈ known) {count : Int}
    (hcount : rows key = some count)
    (h : ∀ known', Q (some (count + 1)) known' (Function.update rows key (some (count + 1)))) :
    (incrementCount key).Post rateSchema Q known rows := by
  simp only [incrementCount, post_bind, post_lock]
  refine ⟨fun hunknown => absurd hpresent hunknown, fun row hrow known' _ hlocked _ => ?_⟩
  cases hcount.symm.trans hrow
  exact fun _ => ⟨Set.empty_subset _, fun _ _ => trivial, h known'⟩

theorem describes_consume (base : Rows RateCount) :
    Describes rateSchema base Counts consumeRateToken := by
  refine ⟨fun call rows _ => ?_⟩
  simp only [consumeRateToken, post_bind, post_raiseIf, post_require, post_add]
  intro hargs discordId hdiscordId scope hscope windowS hwindowS
  have hkey : call.key = some ⟨discordId, scope, bucketStart call.now windowS⟩ := by
    rw [RateCall.key, hdiscordId, hscope, hwindowS]
    rfl
  refine ⟨fun hfree => ⟨Set.empty_subset _, ?_⟩, fun known' _ hpresent hrow => ?_⟩
  · rw [if_pos trivial]
    refine ⟨_, hkey, ?_, ?_⟩
    · simp [RateCall.allowed, hfree]
    · rw [hfree]
      rfl
  · obtain ⟨count, hcount⟩ := Option.ne_none_iff_exists'.mp hrow
    rw [if_neg Bool.false_ne_true, post_bind]
    refine post_incrementCount hpresent hcount fun _ => ⟨_, hkey, ?_, ?_⟩
    · simp [RateCall.allowed, hcount]
    · rw [hcount]
      rfl

/-! ## All calls -/

/-- How often a row has been counted in. -/
def countIn (key : RateLimitKey) (returned : List (RateCall × Option Bool)) : ℕ :=
  returned.countP fun taken => taken.1.key = some key

theorem countIn_append (key : RateLimitKey) (past rest : List (RateCall × Option Bool)) :
    countIn key (past ++ rest) = countIn key past + countIn key rest := by
  simp [countIn]

/-- The rows count the calls that returned, each of which was told by those before it. -/
structure Metered (returned : List (RateCall × Option Bool)) (rows : Rows RateCount) : Prop where
  counts : ∀ key, (rows key).getD 0 = countIn key returned
  told : ∀ earlier taken later, returned = earlier ++ taken :: later →
    ∃ key, taken.1.key = some key ∧ taken.2 = taken.1.allowed (countIn key earlier)

theorem Metered.call {past : List (RateCall × Option Bool)} {before after : Rows RateCount}
    (h : Metered past before) {call : RateCall} {result : Option Bool}
    (hcounts : Counts call before result after) : Metered (past ++ [(call, result)]) after := by
  obtain ⟨key, hkey, rfl, rfl⟩ := hcounts
  refine ⟨fun other => ?_, fun earlier taken later heq => ?_⟩
  · rw [countIn_append, Nat.cast_add, ← h.counts other]
    by_cases hother : other = key
    · subst hother
      simp [countIn, hkey]
    · have hne : key ≠ other := fun hsame => hother hsame.symm
      simp [countIn, hkey, hother, hne]
  · rcases List.eq_nil_or_concat' later with rfl | ⟨later, last, rfl⟩
    · obtain ⟨rfl, htaken⟩ := List.append_inj' heq rfl
      cases List.singleton_inj.mp htaken
      exact ⟨key, hkey, by rw [h.counts key]⟩
    · rw [← List.cons_append, ← List.append_assoc] at heq
      exact h.told earlier taken later (List.append_inj' heq rfl).1

theorem metered_returned {τ : Type} [DecidableEq τ] (moves : List (Move τ RateCall)) :
    ∃ rows, Metered (returned consumeRateToken (quiet [] fun _ => none) moves) rows :=
  ⟨_, committed_returned (describes_consume fun _ => none) (fun _ _ _ _ _ hcounts h => h.call hcounts)
    ⟨fun _ h => absurd rfl h, fun _ _ h => by cases h⟩
    ⟨fun _ => rfl, fun earlier taken later heq => by simp at heq⟩ moves⟩

/-- The first calls of a row are allowed, up to its cap. -/
theorem Metered.countP_allowed {returned : List (RateCall × Option Bool)} {rows : Rows RateCount}
    (h : Metered returned rows) {key : RateLimitKey} {maxCount : Int} (hpositive : 0 ≤ maxCount)
    (hcap : ∀ taken ∈ returned, taken.1.key = some key → taken.1.pMaxCount = some maxCount) :
    (returned.countP (fun taken => taken.1.key = some key ∧ taken.2 = some true) : Int) =
      min (countIn key returned : Int) maxCount := by
  have htold := h.told
  clear h
  induction returned using List.reverseRecOn with
  | nil => simp [countIn, hpositive]
  | append_singleton past taken ih =>
      have hpast := ih (fun earlier hearlier => hcap earlier (List.mem_append_left _ hearlier))
        fun earlier taken' later heq => htold earlier taken' (later ++ [taken]) (by rw [heq]; simp)
      obtain ⟨key', hkey', hresult⟩ := htold past taken [] rfl
      rw [List.countP_append, countIn_append, Nat.cast_add, Nat.cast_add, hpast]
      by_cases hkey : taken.1.key = some key
      · obtain rfl : key' = key := Option.some.inj (hkey'.symm.trans hkey)
        rw [RateCall.allowed, hcap taken (List.mem_append_right _ List.mem_cons_self) hkey] at hresult
        have hone : countIn key' [taken] = 1 := by
          simp [countIn, hkey]
        by_cases hroom : (countIn key' past : Int) + 1 ≤ maxCount
        · have htrue : taken.2 = some true := by
            rw [hresult, Option.map_some, decide_eq_true hroom]
          simp only [List.countP_singleton, hkey, htrue, hone]
          simp
          omega
        · have hfalse : taken.2 = some false := by
            rw [hresult, Option.map_some, decide_eq_false hroom]
          simp only [List.countP_singleton, hkey, hfalse, hone]
          simp
          omega
      · have hzero : countIn key [taken] = 0 := by
          simp [countIn, hkey]
        simp [hkey, hzero]

/-! ## Windows -/

/-- `now` is in `[k * window_s, (k + 1) * window_s)`. -/
def InWindow (windowS k : Int) (now : Timestamp) : Prop :=
  k * windowS * 1000000 ≤ now ∧ now < (k + 1) * windowS * 1000000

instance (windowS k : Int) (now : Timestamp) : Decidable (InWindow windowS k now) :=
  inferInstanceAs (Decidable (_ ∧ _))

/-- The window in which the clock is half a second later. Before 1970 it is half a second
earlier, and windows are numbered towards 0. -/
def roundedWindow (windowS : Int) (now : Timestamp) : Int :=
  if 0 ≤ now then (now + 500000) / (windowS * 1000000)
  else -((500000 - now) / (windowS * 1000000))

theorem bucketStart_eq (now : Timestamp) (windowS : Int) :
    bucketStart now windowS = roundedWindow windowS now * windowS * 1000000 := by
  have hround : ∀ n : Int, (2 * n + 1000000) / (2 * 1000000) = (n + 500000) / 1000000 := by
    intro n
    omega
  have hwindow : ∀ n : Int, 0 ≤ n → (n / 1000000).tdiv windowS = n / (windowS * 1000000) := by
    intro n hn
    rw [Int.tdiv_eq_ediv_of_nonneg (Int.ediv_nonneg hn (by decide)),
      Int.ediv_ediv_of_nonneg (by decide), Int.mul_comm]
  unfold bucketStart epochSeconds roundDiv roundedWindow
  split_ifs with hsince
  · rw [hround, hwindow _ (by omega)]
  · rw [hround, Int.neg_tdiv, hwindow _ (by omega), neg_add_eq_sub]

section Caps

variable {discordId windowS maxCount : Int} {scope : String} {times : Set Timestamp}

/-- How many calls of the window returned, and how many of these `TRUE`. -/
def callsIn (discordId : Int) (scope : String) (windowS k : Int)
    (returned : List (RateCall × Option Bool)) : ℕ :=
  returned.countP fun taken => taken.1.pDiscordId = some discordId ∧ taken.1.pScope = some scope ∧
    InWindow windowS k taken.1.now

def allowedIn (discordId : Int) (scope : String) (windowS k : Int)
    (returned : List (RateCall × Option Bool)) : ℕ :=
  returned.countP fun taken => (taken.1.pDiscordId = some discordId ∧ taken.1.pScope = some scope ∧
    InWindow windowS k taken.1.now) ∧ taken.2 = some true

/-- In every window as many calls are allowed as there are, up to the cap. -/
def CapsWindows (discordId : Int) (scope : String) (windowS maxCount : Int)
    (returned : List (RateCall × Option Bool)) : Prop :=
  ∀ k, (allowedIn discordId scope windowS k returned : Int) =
    min (callsIn discordId scope windowS k returned : Int) maxCount

/-- The calls for the user and the scope have these limits, and come at these times. -/
def Within (discordId : Int) (scope : String) (windowS maxCount : Int) (times : Set Timestamp)
    (call : RateCall) : Prop :=
  call.pDiscordId = some discordId → call.pScope = some scope →
    call.pWindowS = some windowS ∧ call.pMaxCount = some maxCount ∧ call.now ∈ times

/-- Calls share a window when they share one half a second later. -/
def KeepsWindows (windowS : Int) (times : Set Timestamp) : Prop :=
  ∀ t ∈ times, ∀ t' ∈ times,
    (∃ k, InWindow windowS k t ∧ InWindow windowS k t') ↔
      roundedWindow windowS t = roundedWindow windowS t'

theorem exists_inWindow (hwindowS : 1 ≤ windowS) (t : Timestamp) :
    InWindow windowS (t / (windowS * 1000000)) t := by
  have hpos : 0 < windowS * 1000000 := by omega
  have hle := Int.ediv_mul_le t (ne_of_gt hpos)
  have hlt := Int.lt_ediv_add_one_mul_self t hpos
  constructor
  · rwa [mul_assoc]
  · rwa [mul_assoc]

theorem InWindow.unique (hwindowS : 1 ≤ windowS) {k k' : Int} {t : Timestamp}
    (hk : InWindow windowS k t) (hk' : InWindow windowS k' t) : k = k' := by
  have hpos : 0 < windowS * 1000000 := by omega
  obtain ⟨hlo, hhi⟩ := hk
  obtain ⟨hlo', hhi'⟩ := hk'
  rw [mul_assoc] at hlo hhi hlo' hhi'
  have hlt : k < k' + 1 := lt_of_mul_lt_mul_right (hlo.trans_lt hhi') hpos.le
  have hlt' : k' < k + 1 := lt_of_mul_lt_mul_right (hlo'.trans_lt hhi) hpos.le
  omega

/-- Calls of the user and the scope share a row when they share a window half a second
later. -/
theorem key_eq_iff (hwindowS : 1 ≤ windowS) {call call' : RateCall}
    (hcall : call.pWindowS = some windowS) (hcall' : call'.pWindowS = some windowS)
    (hdiscordId : call.pDiscordId = some discordId) (hscope : call.pScope = some scope)
    (hdiscordId' : call'.pDiscordId = some discordId) (hscope' : call'.pScope = some scope) :
    call.key = call'.key ↔ roundedWindow windowS call.now = roundedWindow windowS call'.now := by
  simp only [RateCall.key, hcall, hcall', hdiscordId, hscope, hdiscordId', hscope', bucketStart_eq,
    Option.bind_eq_bind, Option.bind_some, Option.pure_def, Option.some.injEq,
    RateLimitKey.mk.injEq, true_and, mul_assoc]
  have hlength : windowS * 1000000 ≠ 0 := by
    omega
  exact mul_left_inj' hlength

/-- Whose row a call counts in. -/
theorem key_eq_some {call : RateCall} {key : RateLimitKey} (hkey : call.key = some key) :
    call.pDiscordId = some key.discordId ∧ call.pScope = some key.scope := by
  rw [RateCall.key] at hkey
  obtain ⟨discordId, hdiscordId, hkey⟩ := Option.bind_eq_some_iff.mp hkey
  obtain ⟨scope, hscope, hkey⟩ := Option.bind_eq_some_iff.mp hkey
  obtain ⟨windowS, hwindowS, hkey⟩ := Option.bind_eq_some_iff.mp hkey
  cases hkey
  exact ⟨hdiscordId, hscope⟩

/-- When windows and rows correspond, the windows are capped. -/
theorem capsWindows (hwindowS : 1 ≤ windowS) (hmaxCount : 1 ≤ maxCount)
    (htimes : KeepsWindows windowS times) {returned : List (RateCall × Option Bool)}
    {rows : Rows RateCount} (hmetered : Metered returned rows)
    (hwithin : ∀ taken ∈ returned, Within discordId scope windowS maxCount times taken.1) :
    CapsWindows discordId scope windowS maxCount returned := by
  intro k
  rcases Nat.eq_zero_or_pos (callsIn discordId scope windowS k returned) with hnone | hsome
  · have hzero : allowedIn discordId scope windowS k returned = 0 := by
      refine Nat.eq_zero_of_le_zero (hnone ▸ List.countP_mono_left fun taken _ h => ?_)
      simp only [decide_eq_true_eq] at h ⊢
      exact h.1
    rw [hnone, hzero]
    omega
  · obtain ⟨first, hfirst, hin⟩ := List.countP_pos_iff.mp hsome
    simp only [decide_eq_true_eq] at hin
    obtain ⟨hdiscordId, hscope, hwindow⟩ := hin
    obtain ⟨hw, hm, htime⟩ := hwithin first hfirst hdiscordId hscope
    obtain ⟨earlier, later, hsplit⟩ := List.append_of_mem hfirst
    obtain ⟨key, hkey, -⟩ := hmetered.told earlier first later hsplit
    have hsame : key.discordId = discordId ∧ key.scope = scope := by
      obtain ⟨hd, hs⟩ := key_eq_some hkey
      exact ⟨Option.some.inj (hd.symm.trans hdiscordId), Option.some.inj (hs.symm.trans hscope)⟩
    -- The calls of this window are those that count in the row of its first.
    have hrow : ∀ taken ∈ returned, (taken.1.pDiscordId = some discordId ∧
        taken.1.pScope = some scope ∧ InWindow windowS k taken.1.now) ↔
          taken.1.key = some key := by
      intro taken htaken
      constructor
      · rintro ⟨hd, hs, hin⟩
        obtain ⟨hw', hm', htime'⟩ := hwithin taken htaken hd hs
        rw [← hkey, key_eq_iff hwindowS hw' hw hd hs hdiscordId hscope]
        exact (htimes _ htime' _ htime).mp ⟨k, hin, hwindow⟩
      · intro hkey'
        obtain ⟨hd, hs⟩ := key_eq_some hkey'
        rw [hsame.1] at hd
        rw [hsame.2] at hs
        obtain ⟨hw', hm', htime'⟩ := hwithin taken htaken hd hs
        rw [← hkey, key_eq_iff hwindowS hw' hw hd hs hdiscordId hscope] at hkey'
        obtain ⟨k', hin', hwindow'⟩ := (htimes _ htime' _ htime).mpr hkey'
        rw [hwindow.unique hwindowS hwindow']
        exact ⟨hd, hs, hin'⟩
    have hcap : ∀ taken ∈ returned, taken.1.key = some key →
        taken.1.pMaxCount = some maxCount := by
      intro taken htaken hkey'
      obtain ⟨hd, hs, -⟩ := (hrow taken htaken).mpr hkey'
      exact (hwithin taken htaken hd hs).2.1
    have hcalls : callsIn discordId scope windowS k returned = countIn key returned :=
      List.countP_congr fun taken htaken => by simpa using hrow taken htaken
    have hallowed : allowedIn discordId scope windowS k returned =
        returned.countP fun taken => taken.1.key = some key ∧ taken.2 = some true :=
      List.countP_congr fun taken htaken => by
        simpa using fun _ => hrow taken htaken
    rw [hcalls, hallowed, hmetered.countP_allowed (by omega) hcap]

/-- A good call performs its script on whatever it finds. -/
theorem performs_consume (hwindowS : 1 ≤ windowS) (hmaxCount : 1 ≤ maxCount) {call : RateCall}
    (hd : call.pDiscordId = some discordId) (hs : call.pScope = some scope)
    (hw : call.pWindowS = some windowS) (hm : call.pMaxCount = some maxCount)
    (s : Snapshot RateCount) :
    ∃ result s', (consumeRateToken call).perform s [] = some (result, s') := by
  have hargs : ¬ (IsLt call.pWindowS (some 1) ∨ IsLt call.pMaxCount (some 1)) := by
    rw [hw, hm, isLt_some, isLt_some]
    omega
  unfold consumeRateToken
  rw [raiseIf, if_neg hargs, hd, hs, hw]
  change ∃ result s', (Script.insertNew _ _ _).perform s [] = some (result, s')
  simp only [perform]
  cases hrow : s.rows ⟨discordId, scope, bucketStart call.now windowS⟩ with
  | none => exact ⟨_, _, rfl⟩
  | some count =>
      change ∃ result s', (Script.select _ _).perform s [] = some (result, s')
      simp only [perform, hrow]
      change ∃ result s', (Script.write _ _ _).perform s [_] = some (result, s')
      simp only [perform, List.mem_singleton, if_true]
      exact ⟨_, _, rfl⟩

/-- `maxCount` calls at one time and then one at another. -/
def fillThen (discordId : Int) (scope : String) (windowS maxCount : Int) (t t' : Timestamp) :
    List RateCall :=
  List.replicate maxCount.toNat ⟨t, some discordId, some scope, some windowS, some maxCount⟩ ++
    [⟨t', some discordId, some scope, some windowS, some maxCount⟩]

section Filled

variable {t t' : Timestamp} {past : List (RateCall × Option Bool)} {last : RateCall × Option Bool}
  {rows : Rows RateCount}

/-- The row is full, but the window of the last call is another. -/
theorem not_capsWindows_of_joined (hwindowS : 1 ≤ windowS) (hmaxCount : 1 ≤ maxCount)
    (hmetered : Metered (past ++ [last]) rows)
    (hpast : ∀ taken ∈ past,
      taken.1 = ⟨t, some discordId, some scope, some windowS, some maxCount⟩)
    (hlength : past.length = maxCount.toNat)
    (hlast : last.1 = ⟨t', some discordId, some scope, some windowS, some maxCount⟩)
    (hsame : roundedWindow windowS t = roundedWindow windowS t')
    (hapart : ∀ k, InWindow windowS k t → ¬ InWindow windowS k t') :
    ¬ CapsWindows discordId scope windowS maxCount (past ++ [last]) := by
  intro hcaps
  obtain ⟨key, hkey, htold⟩ := hmetered.told past last [] rfl
  rw [hlast] at hkey htold
  have hin := exists_inWindow hwindowS t'
  -- the earlier calls fill the row of `last`, which is denied though its own window is empty
  have hfull : countIn key past = past.length := by
    refine List.countP_eq_length.mpr fun taken htaken => decide_eq_true ?_
    rw [← hkey, hpast taken htaken]
    exact (key_eq_iff hwindowS rfl rfl rfl rfl rfl rfl).mpr hsame
  have hdenied : last.2 = some false := by
    rw [htold, RateCall.allowed, hfull, hlength, Option.map_some, decide_eq_false (by omega)]
  have hcap := hcaps (t' / (windowS * 1000000))
  -- none of the earlier calls lies in the window of `last`
  have hnone : allowedIn discordId scope windowS (t' / (windowS * 1000000)) (past ++ [last]) = 0 := by
    refine List.countP_eq_zero.mpr fun taken htaken hallowed => ?_
    simp only [decide_eq_true_eq] at hallowed
    obtain ⟨⟨-, -, htaken'⟩, htrue⟩ := hallowed
    rcases List.mem_append.mp htaken with hmem | hmem
    · rw [hpast taken hmem] at htaken'
      exact hapart _ htaken' hin
    · rw [List.mem_singleton.mp hmem, hdenied] at htrue
      cases htrue
  have hsome : 0 < callsIn discordId scope windowS (t' / (windowS * 1000000)) (past ++ [last]) := by
    refine List.countP_pos_iff.mpr ⟨last, by simp, ?_⟩
    rw [hlast]
    exact decide_eq_true ⟨rfl, rfl, hin⟩
  omega

/-- The window is full, but the last call counts in another row. -/
theorem not_capsWindows_of_parted (hwindowS : 1 ≤ windowS) (hmaxCount : 1 ≤ maxCount)
    (hmetered : Metered (past ++ [last]) rows)
    (hpast : ∀ taken ∈ past,
      taken.1 = ⟨t, some discordId, some scope, some windowS, some maxCount⟩)
    (hlength : past.length = maxCount.toNat)
    (hlast : last.1 = ⟨t', some discordId, some scope, some windowS, some maxCount⟩)
    (hsame : roundedWindow windowS t ≠ roundedWindow windowS t') {k : Int}
    (hk : InWindow windowS k t) (hk' : InWindow windowS k t') :
    ¬ CapsWindows discordId scope windowS maxCount (past ++ [last]) := by
  intro hcaps
  obtain ⟨key, hkey⟩ : ∃ key, RateCall.key ⟨t, some discordId, some scope, some windowS,
      some maxCount⟩ = some key := ⟨_, rfl⟩
  obtain ⟨key', hkey', htold⟩ := hmetered.told past last [] rfl
  -- two rows serve one window
  have hne : key ≠ key' := by
    rintro rfl
    rw [hlast, ← hkey] at hkey'
    exact hsame ((key_eq_iff hwindowS rfl rfl rfl rfl rfl rfl).mp hkey').symm
  have hrow : ∀ taken ∈ past, taken.1.key = some key := fun taken htaken => by
    rw [hpast taken htaken, hkey]
  have hlastrow : last.1.key ≠ some key := by
    rw [hkey']
    exact fun heq => hne (Option.some.inj heq).symm
  -- the row of `last` is fresh, so `last` is allowed as well
  have hfresh : countIn key' past = 0 := by
    refine List.countP_eq_zero.mpr fun taken htaken h => hne ?_
    exact Option.some.inj ((hrow taken htaken).symm.trans (of_decide_eq_true h))
  have hlasttrue : last.2 = some true := by
    rw [htold, RateCall.allowed, hlast, hfresh, Option.map_some, decide_eq_true (by omega)]
  -- the other row has allowed all of `past`
  have hcount : countIn key (past ++ [last]) = maxCount.toNat := by
    have hpastall : countIn key past = past.length :=
      List.countP_eq_length.mpr fun taken htaken => decide_eq_true (hrow taken htaken)
    have hlastnone : countIn key [last] = 0 := by
      simp [countIn, hlastrow]
    rw [countIn_append]
    omega
  have hcapped : ∀ taken ∈ past ++ [last], taken.1.key = some key →
      taken.1.pMaxCount = some maxCount := by
    intro taken htaken _
    rcases List.mem_append.mp htaken with hmem | hmem
    · rw [hpast taken hmem]
    · rw [List.mem_singleton.mp hmem, hlast]
  have hfull := hmetered.countP_allowed (by omega) hcapped
  have hlastfull : [last].countP (fun taken => taken.1.key = some key ∧ taken.2 = some true) = 0 := by
    simp [hlastrow]
  have hpastcount : past.countP (fun taken => taken.1.key = some key ∧ taken.2 = some true) ≤
      allowedIn discordId scope windowS k past := by
    refine List.countP_mono_left fun taken htaken h => ?_
    simp only [decide_eq_true_eq] at h ⊢
    rw [hpast taken htaken]
    exact ⟨⟨rfl, rfl, hk⟩, h.2⟩
  have hlastcount : allowedIn discordId scope windowS k [last] = 1 := by
    simp [allowedIn, hlast, hlasttrue, hk']
  -- together they are one more than the cap
  have hsplit : allowedIn discordId scope windowS k (past ++ [last]) =
      allowedIn discordId scope windowS k past + allowedIn discordId scope windowS k [last] :=
    List.countP_append
  have hcap := hcaps k
  rw [List.countP_append, hcount] at hfull
  omega

/-- Where windows and rows do not correspond, the last of such calls is told otherwise than
the cap of its window says. -/
theorem not_capsWindows (hwindowS : 1 ≤ windowS) (hmaxCount : 1 ≤ maxCount)
    (hdiffer : ¬ ((∃ k, InWindow windowS k t ∧ InWindow windowS k t') ↔
      roundedWindow windowS t = roundedWindow windowS t'))
    {returned : List (RateCall × Option Bool)} (hmetered : Metered returned rows)
    (hcalls : returned.map Prod.fst = fillThen discordId scope windowS maxCount t t') :
    ¬ CapsWindows discordId scope windowS maxCount returned := by
  obtain ⟨past, lasts, rfl, hpast, hlasts⟩ := List.map_eq_append_iff.mp hcalls
  obtain ⟨last, rfl, hlast⟩ := List.map_eq_singleton_iff.mp hlasts
  have hfirst : ∀ taken ∈ past,
      taken.1 = ⟨t, some discordId, some scope, some windowS, some maxCount⟩ := fun taken htaken =>
    List.eq_of_mem_replicate (hpast ▸ List.mem_map_of_mem htaken)
  have hlength : past.length = maxCount.toNat := by
    rw [← List.length_map Prod.fst, hpast, List.length_replicate]
  by_cases hsame : roundedWindow windowS t = roundedWindow windowS t'
  · exact not_capsWindows_of_joined hwindowS hmaxCount hmetered hfirst hlength hlast hsame
      fun k hk hk' => hdiffer (iff_of_true ⟨k, hk, hk'⟩ hsame)
  · obtain ⟨k, hk, hk'⟩ : ∃ k, InWindow windowS k t ∧ InWindow windowS k t' := by
      by_contra hapart
      exact hdiffer (iff_of_false hapart hsame)
    exact not_capsWindows_of_parted hwindowS hmaxCount hmetered hfirst hlength hlast hsame hk hk'

end Filled

/-- The caps hold in every run exactly if half a second does not separate calls of one window,
nor join those of two. -/
theorem caps_iff (hwindowS : 1 ≤ windowS) (hmaxCount : 1 ≤ maxCount) :
    (∀ moves : List (Move ℕ RateCall),
      (∀ move ∈ moves, Admits (Within discordId scope windowS maxCount times) move) →
        CapsWindows discordId scope windowS maxCount
          (returned consumeRateToken (quiet [] fun _ => none) moves)) ↔
      KeepsWindows windowS times := by
  constructor
  · intro hcaps t ht t' ht'
    by_contra hdiffer
    -- the serial run that fills the row of `t` and then calls at `t'`
    have hwithin : ∀ call ∈ fillThen discordId scope windowS maxCount t t',
        Within discordId scope windowS maxCount times call := by
      intro call hcall
      rcases List.mem_append.mp hcall with hcall | hcall
      · rw [List.eq_of_mem_replicate hcall]
        exact fun _ _ => ⟨rfl, rfl, ht⟩
      · rw [List.mem_singleton.mp hcall]
        exact fun _ _ => ⟨rfl, rfl, ht'⟩
    have hperform : ∀ call ∈ fillThen discordId scope windowS maxCount t t', ∀ s,
        ∃ result s', (consumeRateToken call).perform s [] = some (result, s') := by
      intro call hcall
      rcases List.mem_append.mp hcall with hcall | hcall
      · rw [List.eq_of_mem_replicate hcall]
        exact performs_consume hwindowS hmaxCount rfl rfl rfl rfl
      · rw [List.mem_singleton.mp hcall]
        exact performs_consume hwindowS hmaxCount rfl rfl rfl rfl
    obtain ⟨moves, hmoves, hcalls⟩ := exists_serial (0 : ℕ) hperform ⟨[], fun _ => none⟩
    obtain ⟨rows, hmetered⟩ := metered_returned moves
    refine not_capsWindows hwindowS hmaxCount hdiffer hmetered hcalls (hcaps moves ?_)
    intro move hmove
    have hadmits := hmoves move hmove
    cases move with
    | start tx call => exact hwithin call hadmits
    | next | commit | rollback => trivial
  · intro htimes moves hmoves
    obtain ⟨rows, hmetered⟩ := metered_returned moves
    exact capsWindows hwindowS hmaxCount htimes hmetered (admitted_returned hmoves)

/-- Since 1970, and but for the last half second of a window, the rounding does nothing. -/
theorem keepsWindows_of_not_last (hwindowS : 1 ≤ windowS)
    (htimes : ∀ t ∈ times, 0 ≤ t ∧ t % (windowS * 1000000) + 500000 < windowS * 1000000) :
    KeepsWindows windowS times := by
  have hpos : 0 < windowS * 1000000 := by omega
  have hrounded : ∀ t ∈ times, roundedWindow windowS t = t / (windowS * 1000000) := by
    intro t ht
    obtain ⟨hsince, hearly⟩ := htimes t ht
    have hmod := Int.emod_nonneg t (ne_of_gt hpos)
    rw [roundedWindow, if_pos hsince]
    calc (t + 500000) / (windowS * 1000000)
        = (t % (windowS * 1000000) + 500000 + windowS * 1000000 * (t / (windowS * 1000000))) /
            (windowS * 1000000) := by
          rw [add_right_comm, Int.emod_add_mul_ediv]
      _ = (t % (windowS * 1000000) + 500000) / (windowS * 1000000) +
            t / (windowS * 1000000) := Int.add_mul_ediv_left _ _ (ne_of_gt hpos)
      _ = t / (windowS * 1000000) := by
          rw [Int.ediv_eq_zero_of_lt (by omega) hearly, zero_add]
  intro t ht t' ht'
  rw [hrounded t ht, hrounded t' ht']
  constructor
  · rintro ⟨k, hk, hk'⟩
    exact ((exists_inWindow hwindowS t).unique hwindowS hk).trans
      (hk'.unique hwindowS (exists_inWindow hwindowS t'))
  · intro heq
    exact ⟨_, exists_inWindow hwindowS t, heq ▸ exists_inWindow hwindowS t'⟩

end Caps

/-- A call of the rate limit `race`. -/
def raceCall (now : Timestamp) : RateCall := ⟨now, some 6, some "race", some 60, some 1⟩

/-- Two calls at once, ten seconds into a window. -/
def tokenRace : List (Move ℕ RateCall) :=
  [.start 0 (raceCall 10000000), .start 1 (raceCall 10000000), .next 0, .next 1, .commit 0, .next 1,
    .next 1, .next 1, .commit 1]

theorem caps_iff_race :
    CapsWindows 6 "race" 60 1 (returned consumeRateToken (quiet [] fun _ => none) tokenRace) := by
  have htimes : KeepsWindows 60 {10000000} :=
    keepsWindows_of_not_last (by decide) (by rintro t rfl; decide)
  refine (caps_iff (by decide) (by decide)).mpr htimes tokenRace fun move hmove => ?_
  simp only [tokenRace, List.mem_cons, List.not_mem_nil, or_false] at hmove
  rcases hmove with rfl | rfl | rfl | rfl | rfl | rfl | rfl | rfl | rfl
  · exact fun _ _ => ⟨rfl, rfl, rfl⟩
  · exact fun _ _ => ⟨rfl, rfl, rfl⟩
  all_goals trivial

/-- A call ten seconds into a window and one half a second before its end are both allowed. -/
theorem exceeds_cap :
    ¬ CapsWindows 6 "race" 60 1 (returned consumeRateToken (quiet [] fun _ => none)
      (callAlone 0 (raceCall 10000000) 1 ++ callAlone 0 (raceCall 59500000) 1)) := by
  intro hcaps
  exact absurd (hcaps 0) (by decide +kernel)

end DeathRoll.Interleaved
