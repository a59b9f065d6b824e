import DeathRoll.Ledger.Runs

/-! # Setting limits

`_handle_set_pair` of the admin cog checks a minimum against its maximum and stores the two
in statements of their own. Commands interleave, fail between the statements, and are read
by the functions that open tickets, which select the two bounds one after the other.
-/

namespace DeathRoll

open Relational Tx

/-! ## The command -/

/-- The pairs of keys that the two slash commands set. -/
inductive LimitKind where
  | deposit
  | withdraw
deriving DecidableEq

def LimitKind.keyMin : LimitKind → String
  | .deposit => "min_deposit_g"
  | .withdraw => "min_withdraw_g"

def LimitKind.keyMax : LimitKind → String
  | .deposit => "max_deposit_g"
  | .withdraw => "max_withdraw_g"

/-- The arguments of a command. -/
structure SetPair where
  kind : LimitKind
  minValue : Int
  maxValue : Int
deriving DecidableEq

/-- Commas after every three digits, the list starting at the last digit. -/
def separated : List Char → List Char
  | a :: b :: c :: d :: rest => a :: b :: c :: ',' :: separated (d :: rest)
  | rest => rest

/-- `f"{value:,}"`. -/
def groupedText (value : Int) : String :=
  let digits := String.ofList (separated (toString value.natAbs).toList.reverse).reverse
  if value < 0 then "-" ++ digits else digits

/-- The reply with which `_handle_set_pair` returns before it writes. -/
def SetPair.refusal (c : SetPair) (poolReady : Bool) : Option String :=
  if ¬ poolReady then some "Bot is still starting up — try again in a few seconds."
  else if c.minValue ≤ 0 ∨ c.maxValue ≤ 0 then
    some "❌ Both `min_g` and `max_g` must be positive."
  else if c.minValue > c.maxValue then
    some ("❌ `min_g` (" ++ groupedText c.minValue ++ ") must be <= `max_g` (" ++
      groupedText c.maxValue ++ ").")
  else none

def SetPair.done (c : SetPair) : String :=
  "✅ `" ++ c.kind.keyMin ++ "` = `" ++ groupedText c.minValue ++ "g`, `" ++ c.kind.keyMax ++
    "` = `" ++ groupedText c.maxValue ++ "g`."

/-- `persist_config_int`: one statement, committed on its own. -/
def persistConfigInt (config : Table String (Option Int)) (key : String) (value : Int) :
    Table String (Option Int) :=
  upsert config key (some value)

/-- `SELECT value_int FROM dw.global_config WHERE key = _`. -/
def configInt (config : Table String (Option Int)) (key : String) : Option Int :=
  (config.get? key).join

/-! ## Commands and readers at work -/

/-- How far a command has got. -/
inductive SetStage where
  | first
  | second
  | replied (text : String)
  | failed
deriving DecidableEq

/-- `dw.global_config`, the commands that were accepted so far, how far each command and
each opening of a ticket has got, and the bounds that the openings saw. -/
structure LimitsWorld (τ : Type) where
  config : Table String (Option Int)
  supplied : List SetPair := []
  commands : τ → Option (SetPair × SetStage) := fun _ => none
  reading : τ → Option (LimitKind × Option Int) := fun _ => none
  seen : List (LimitKind × Option Int × Option Int) := []

inductive LimitsMove (τ : Type) where
  | handle (tx : τ) (c : SetPair) (poolReady : Bool)
  | persist (tx : τ)
  | fail (tx : τ)
  | selectMin (tx : τ) (kind : LimitKind)
  | selectMax (tx : τ)

namespace LimitsWorld

variable {τ : Type} [DecidableEq τ]

def step (w : LimitsWorld τ) : LimitsMove τ → LimitsWorld τ
  | .handle tx c poolReady =>
      match w.commands tx with
      | some (_, .first) | some (_, .second) => w
      | _ =>
          match c.refusal poolReady with
          | some text =>
              { w with commands := Function.update w.commands tx (some (c, .replied text)) }
          | none =>
              { w with
                supplied := w.supplied ++ [c]
                commands := Function.update w.commands tx (some (c, .first)) }
  | .persist tx =>
      match w.commands tx with
      | some (c, .first) =>
          { w with
            config := persistConfigInt w.config c.kind.keyMin c.minValue
            commands := Function.update w.commands tx (some (c, .second)) }
      | some (c, .second) =>
          { w with
            config := persistConfigInt w.config c.kind.keyMax c.maxValue
            commands := Function.update w.commands tx (some (c, .replied c.done)) }
      | _ => w
  | .fail tx =>
      match w.commands tx with
      | some (c, .first) | some (c, .second) =>
          { w with commands := Function.update w.commands tx (some (c, .failed)) }
      | _ => w
  | .selectMin tx kind =>
      { w with
        reading := Function.update w.reading tx (some (kind, configInt w.config kind.keyMin)) }
  | .selectMax tx =>
      match w.reading tx with
      | none => w
      | some (kind, vMin) =>
          { w with
            reading := Function.update w.reading tx none
            seen := w.seen ++ [(kind, vMin, configInt w.config kind.keyMax)] }

end LimitsWorld

/-! ## What the limits are for -/

/-- What was configured before any command. -/
structure Limits where
  low : LimitKind → Int
  high : LimitKind → Int
  low_le_high : ∀ kind, low kind ≤ high kind

/-- The configured bounds before any command, and nobody at work. -/
def Limits.StoredIn (limits : Limits) (config : Table String (Option Int)) : Prop :=
  ∀ kind, configInt config kind.keyMin = some (limits.low kind) ∧
    configInt config kind.keyMax = some (limits.high kind)

/-- A pair that was configured or that one accepted command supplied. -/
def Limits.Supplied (limits : Limits) (supplied : List SetPair) (kind : LimitKind)
    (lo hi : Int) : Prop :=
  (lo, hi) = (limits.low kind, limits.high kind) ∨ ⟨kind, lo, hi⟩ ∈ supplied

/-- The stored bounds are a supplied pair and do not cross, nor do those that were seen. -/
structure LimitsWorld.Holds {τ : Type} (w : LimitsWorld τ) (limits : Limits) : Prop where
  stored : ∀ kind, ∃ lo hi, configInt w.config kind.keyMin = some lo ∧
    configInt w.config kind.keyMax = some hi ∧ lo ≤ hi ∧ limits.Supplied w.supplied kind lo hi
  seen : ∀ kind vMin vMax, (kind, vMin, vMax) ∈ w.seen →
    ∃ lo hi, vMin = some lo ∧ vMax = some hi ∧ lo ≤ hi

variable {limits : Limits} {supplied : List SetPair} {kind : LimitKind} {c : SetPair}

/-! ## Keys and checks -/

@[simp] theorem LimitKind.keyMin_inj {a b : LimitKind} : a.keyMin = b.keyMin ↔ a = b := by
  cases a <;> cases b <;> decide

@[simp] theorem LimitKind.keyMax_inj {a b : LimitKind} : a.keyMax = b.keyMax ↔ a = b := by
  cases a <;> cases b <;> decide

@[simp] theorem LimitKind.keyMin_ne_keyMax (a b : LimitKind) : a.keyMin ≠ b.keyMax := by
  cases a <;> cases b <;> decide

@[simp] theorem LimitKind.keyMax_ne_keyMin (a b : LimitKind) : a.keyMax ≠ b.keyMin :=
  (LimitKind.keyMin_ne_keyMax b a).symm

theorem configInt_persist (config : Table String (Option Int)) (key other : String) (value : Int) :
    configInt (persistConfigInt config key value) other =
      if other = key then some value else configInt config other := by
  unfold configInt persistConfigInt
  rw [upsert_get?]
  split <;> rfl

/-- The command passes the checks. -/
def SetPair.Accepted (c : SetPair) : Prop := c.refusal true = none

theorem SetPair.accepted_of_refusal {poolReady : Bool} (hnone : c.refusal poolReady = none) :
    c.Accepted := by
  cases poolReady with
  | true => exact hnone
  | false => simp [SetPair.refusal] at hnone

theorem SetPair.Accepted.le (haccepted : c.Accepted) : c.minValue ≤ c.maxValue := by
  unfold SetPair.Accepted SetPair.refusal at haccepted
  split_ifs at haccepted with _ _ hle
  exact not_lt.mp hle

/-! ## Every value comes from somewhere -/

/-- A minimum that was configured or that an accepted command gave. -/
def Limits.Low (limits : Limits) (supplied : List SetPair) (kind : LimitKind) (lo : Int) : Prop :=
  lo = limits.low kind ∨ ∃ c ∈ supplied, c.kind = kind ∧ c.minValue = lo

def Limits.High (limits : Limits) (supplied : List SetPair) (kind : LimitKind) (hi : Int) : Prop :=
  hi = limits.high kind ∨ ∃ c ∈ supplied, c.kind = kind ∧ c.maxValue = hi

theorem Limits.Low.append {lo : Int} (hlow : limits.Low supplied kind lo) (more : List SetPair) :
    limits.Low (supplied ++ more) kind lo := by
  rcases hlow with hlow | ⟨c, hc, hsame⟩
  · exact .inl hlow
  · exact .inr ⟨c, List.mem_append_left more hc, hsame⟩

theorem Limits.High.append {hi : Int} (hhigh : limits.High supplied kind hi)
    (more : List SetPair) : limits.High (supplied ++ more) kind hi := by
  rcases hhigh with hhigh | ⟨c, hc, hsame⟩
  · exact .inl hhigh
  · exact .inr ⟨c, List.mem_append_left more hc, hsame⟩

variable {τ : Type} {w : LimitsWorld τ} {allowed : Set SetPair}

/-- What is stored and what was read, each bound by itself. -/
structure LimitsWorld.Drawn (w : LimitsWorld τ) (limits : Limits) (allowed : Set SetPair) :
    Prop where
  low : ∀ kind, ∃ lo, configInt w.config kind.keyMin = some lo ∧ limits.Low w.supplied kind lo
  high : ∀ kind, ∃ hi, configInt w.config kind.keyMax = some hi ∧ limits.High w.supplied kind hi
  accepted : ∀ c ∈ w.supplied, c ∈ allowed ∧ c.Accepted
  running : ∀ tx c stage, w.commands tx = some (c, stage) → stage = .first ∨ stage = .second →
    c ∈ w.supplied
  reading : ∀ tx kind vMin, w.reading tx = some (kind, vMin) →
    ∃ lo, vMin = some lo ∧ limits.Low w.supplied kind lo
  seen : ∀ kind vMin vMax, (kind, vMin, vMax) ∈ w.seen →
    ∃ lo hi, vMin = some lo ∧ vMax = some hi ∧ limits.Low w.supplied kind lo ∧
      limits.High w.supplied kind hi

namespace LimitsWorld

theorem Drawn.start {config : Table String (Option Int)} (hstored : limits.StoredIn config)
    (allowed : Set SetPair) : ({ config } : LimitsWorld τ).Drawn limits allowed where
  low kind := ⟨_, (hstored kind).1, .inl rfl⟩
  high kind := ⟨_, (hstored kind).2, .inl rfl⟩
  accepted := by simp
  running := by simp
  reading := by simp
  seen := by simp

/-- An accepted command is supplied. -/
theorem Drawn.supply (hdrawn : w.Drawn limits allowed) (hallowed : c ∈ allowed)
    (haccepted : c.Accepted) :
    ({ w with supplied := w.supplied ++ [c] } : LimitsWorld τ).Drawn limits allowed where
  low kind := by
    obtain ⟨lo, hlo, hlow⟩ := hdrawn.low kind
    exact ⟨lo, hlo, hlow.append [c]⟩
  high kind := by
    obtain ⟨hi, hhi, hhigh⟩ := hdrawn.high kind
    exact ⟨hi, hhi, hhigh.append [c]⟩
  accepted := by
    intro other hother
    rcases List.mem_append.mp hother with hold | hnew
    · exact hdrawn.accepted other hold
    · obtain rfl := List.mem_singleton.mp hnew
      exact ⟨hallowed, haccepted⟩
  running := fun tx other stage hcommand hbusy =>
    List.mem_append_left [c] (hdrawn.running tx other stage hcommand hbusy)
  reading := by
    intro tx kind vMin hreading
    obtain ⟨lo, hlo, hlow⟩ := hdrawn.reading tx kind vMin hreading
    exact ⟨lo, hlo, hlow.append [c]⟩
  seen := by
    intro kind vMin vMax hseen
    obtain ⟨lo, hi, hlo, hhi, hlow, hhigh⟩ := hdrawn.seen kind vMin vMax hseen
    exact ⟨lo, hi, hlo, hhi, hlow.append [c], hhigh.append [c]⟩

/-- A supplied bound is stored. -/
theorem Drawn.persistMin (hdrawn : w.Drawn limits allowed) (hc : c ∈ w.supplied) :
    ({ w with config := persistConfigInt w.config c.kind.keyMin c.minValue } :
      LimitsWorld τ).Drawn limits allowed := by
  refine { hdrawn with low := fun kind => ?_, high := fun kind => ?_ }
  · simp only [configInt_persist, LimitKind.keyMin_inj]
    split
    next heq => exact ⟨_, rfl, .inr ⟨c, hc, heq.symm, rfl⟩⟩
    next => exact hdrawn.low kind
  · simp only [configInt_persist, LimitKind.keyMax_ne_keyMin, if_false]
    exact hdrawn.high kind

theorem Drawn.persistMax (hdrawn : w.Drawn limits allowed) (hc : c ∈ w.supplied) :
    ({ w with config := persistConfigInt w.config c.kind.keyMax c.maxValue } :
      LimitsWorld τ).Drawn limits allowed := by
  refine { hdrawn with low := fun kind => ?_, high := fun kind => ?_ }
  · simp only [configInt_persist, LimitKind.keyMin_ne_keyMax, if_false]
    exact hdrawn.low kind
  · simp only [configInt_persist, LimitKind.keyMax_inj]
    split
    next heq => exact ⟨_, rfl, .inr ⟨c, hc, heq.symm, rfl⟩⟩
    next => exact hdrawn.high kind

variable [DecidableEq τ]

/-- The stages of one command change. -/
theorem Drawn.goOn (hdrawn : w.Drawn limits allowed) (tx : τ) {c : SetPair} {stage : SetStage}
    (hc : stage = .first ∨ stage = .second → c ∈ w.supplied) :
    ({ w with commands := Function.update w.commands tx (some (c, stage)) } :
      LimitsWorld τ).Drawn limits allowed where
  low := hdrawn.low
  high := hdrawn.high
  accepted := hdrawn.accepted
  running := by
    intro other c' stage' hcommand hbusy
    by_cases hother : other = tx
    · subst hother
      simp only [Function.update_self, Option.some.injEq, Prod.mk.injEq] at hcommand
      obtain ⟨rfl, rfl⟩ := hcommand
      exact hc hbusy
    · simp only [Function.update_of_ne hother] at hcommand
      exact hdrawn.running other c' stage' hcommand hbusy
  reading := hdrawn.reading
  seen := hdrawn.seen

theorem Drawn.selectMin (hdrawn : w.Drawn limits allowed) (tx : τ) (kind : LimitKind) :
    (w.step (.selectMin tx kind)).Drawn limits allowed := by
  refine { hdrawn with reading := fun other kind' vMin hreading => ?_ }
  by_cases hother : other = tx
  · subst hother
    simp only [step, Function.update_self, Option.some.injEq, Prod.mk.injEq] at hreading
    obtain ⟨rfl, rfl⟩ := hreading
    exact hdrawn.low kind
  · simp only [step, Function.update_of_ne hother] at hreading
    exact hdrawn.reading other kind' vMin hreading

theorem Drawn.selectMax (hdrawn : w.Drawn limits allowed) (tx : τ) :
    (w.step (.selectMax tx)).Drawn limits allowed := by
  simp only [step]
  split
  next => exact hdrawn
  next kind vMin hown =>
    refine { hdrawn with reading := fun other kind' vMin' hreading => ?_, seen := ?_ }
    · by_cases hother : other = tx
      · subst hother
        simp at hreading
      · simp only [Function.update_of_ne hother] at hreading
        exact hdrawn.reading other kind' vMin' hreading
    · intro kind' vMin' vMax' hseen
      rcases List.mem_append.mp hseen with hold | hnew
      · exact hdrawn.seen kind' vMin' vMax' hold
      · obtain ⟨rfl, rfl, rfl⟩ : kind' = kind ∧ vMin' = vMin ∧ vMax' = _ := by
          simpa using hnew
        obtain ⟨lo, hlo, hlow⟩ := hdrawn.reading tx kind' vMin' hown
        obtain ⟨hi, hhi, hhigh⟩ := hdrawn.high kind'
        exact ⟨lo, hi, hlo, hhi, hlow, hhigh⟩

theorem Drawn.step (hdrawn : w.Drawn limits allowed) (move : LimitsMove τ)
    (hallowed : ∀ tx c poolReady, move = .handle tx c poolReady → c ∈ allowed) :
    (w.step move).Drawn limits allowed := by
  cases move with
  | handle tx c poolReady =>
      simp only [LimitsWorld.step]
      split
      next => exact hdrawn
      next => exact hdrawn
      next =>
        split
        next => exact hdrawn.goOn tx (by simp)
        next hnone =>
          have hsupplied := hdrawn.supply (hallowed tx c poolReady rfl)
            (SetPair.accepted_of_refusal hnone)
          exact hsupplied.goOn tx fun _ => by simp
  | persist tx =>
      simp only [LimitsWorld.step]
      split
      next c hcommand =>
        have hc := hdrawn.running tx c .first hcommand (.inl rfl)
        exact (hdrawn.persistMin hc).goOn tx fun _ => hc
      next c hcommand =>
        have hc := hdrawn.running tx c .second hcommand (.inr rfl)
        exact (hdrawn.persistMax hc).goOn tx fun _ => hc
      next => exact hdrawn
  | fail tx =>
      simp only [LimitsWorld.step]
      split
      next => exact hdrawn.goOn tx (by simp)
      next => exact hdrawn.goOn tx (by simp)
      next => exact hdrawn
  | selectMin tx kind => exact hdrawn.selectMin tx kind
  | selectMax tx => exact hdrawn.selectMax tx

/-- Only commands of the set are given. -/
def Gives (allowed : Set SetPair) (moves : List (LimitsMove τ)) : Prop :=
  ∀ tx c poolReady, .handle tx c poolReady ∈ moves → c ∈ allowed

theorem Drawn.run (hdrawn : w.Drawn limits allowed) {moves : List (LimitsMove τ)}
    (hgives : Gives allowed moves) : (Relational.run LimitsWorld.step w moves).Drawn limits allowed := by
  have hstep : ∀ (w : LimitsWorld τ) (move : LimitsMove τ),
      (∀ tx c poolReady, move = .handle tx c poolReady → c ∈ allowed) →
      w.Drawn limits allowed → (w.step move).Drawn limits allowed :=
    fun w move hallowed hw => hw.step move hallowed
  refine run_invariant hstep hdrawn fun move hmove tx c poolReady hhandle => ?_
  exact hgives tx c poolReady (hhandle ▸ hmove)

/-! ## Commands that disagree -/

omit [DecidableEq τ] in
/-- Where all commands of a kind keep one of the two configured bounds, any two bounds
belong together. -/
theorem Drawn.belong (hdrawn : w.Drawn limits allowed)
    (hkeeps : (∀ c ∈ allowed, c.Accepted → c.kind = kind → c.minValue = limits.low kind) ∨
      ∀ c ∈ allowed, c.Accepted → c.kind = kind → c.maxValue = limits.high kind)
    {lo hi : Int} (hlow : limits.Low w.supplied kind lo) (hhigh : limits.High w.supplied kind hi) :
    lo ≤ hi ∧ limits.Supplied w.supplied kind lo hi := by
  have hstart := limits.low_le_high kind
  rcases hkeeps with hmin | hmax
  · have hlo : lo = limits.low kind := by
      rcases hlow with hlow | ⟨c, hc, hkind, rfl⟩
      · exact hlow
      · exact hmin c (hdrawn.accepted c hc).1 (hdrawn.accepted c hc).2 hkind
    rcases hhigh with rfl | ⟨c, hc, hkind, rfl⟩
    · exact ⟨hlo ▸ hstart, .inl (hlo ▸ rfl)⟩
    · obtain ⟨hallowed, haccepted⟩ := hdrawn.accepted c hc
      have hown := hmin c hallowed haccepted hkind
      refine ⟨by rw [hlo, ← hown]; exact haccepted.le, .inr ?_⟩
      rw [hlo, ← hown, ← hkind]
      exact hc
  · have hhi : hi = limits.high kind := by
      rcases hhigh with hhigh | ⟨c, hc, hkind, rfl⟩
      · exact hhigh
      · exact hmax c (hdrawn.accepted c hc).1 (hdrawn.accepted c hc).2 hkind
    rcases hlow with rfl | ⟨c, hc, hkind, rfl⟩
    · exact ⟨hhi ▸ hstart, .inl (hhi ▸ rfl)⟩
    · obtain ⟨hallowed, haccepted⟩ := hdrawn.accepted c hc
      have hown := hmax c hallowed haccepted hkind
      refine ⟨by rw [hhi, ← hown]; exact haccepted.le, .inr ?_⟩
      rw [hhi, ← hown, ← hkind]
      exact hc

omit [DecidableEq τ] in
theorem Drawn.holds (hdrawn : w.Drawn limits allowed)
    (hkeeps : ∀ kind,
      (∀ c ∈ allowed, c.Accepted → c.kind = kind → c.minValue = limits.low kind) ∨
        ∀ c ∈ allowed, c.Accepted → c.kind = kind → c.maxValue = limits.high kind) :
    w.Holds limits where
  stored kind := by
    obtain ⟨lo, hlo, hlow⟩ := hdrawn.low kind
    obtain ⟨hi, hhi, hhigh⟩ := hdrawn.high kind
    exact ⟨lo, hi, hlo, hhi, hdrawn.belong (hkeeps kind) hlow hhigh⟩
  seen kind vMin vMax hseen := by
    obtain ⟨lo, hi, hlo, hhi, hlow, hhigh⟩ := hdrawn.seen kind vMin vMax hseen
    exact ⟨lo, hi, hlo, hhi, (hdrawn.belong (hkeeps kind) hlow hhigh).1⟩

/-- A command up to its first statement. -/
def firstMoves (tx : τ) (c : SetPair) : List (LimitsMove τ) := [.handle tx c true, .persist tx]

omit [DecidableEq τ] in
theorem gives_firstMoves (tx : τ) (hc : c ∈ allowed) : Gives allowed (firstMoves tx c) := by
  intro tx' c' poolReady hmem
  obtain ⟨-, rfl, -⟩ : tx' = tx ∧ c' = c ∧ poolReady = true := by simpa [firstMoves] using hmem
  exact hc

/-- After a command's first statement its minimum stands beside the configured maximum. -/
theorem keeps_of_first {config : Table String (Option Int)} (hstored : limits.StoredIn config)
    (tx : τ) (haccepted : c.Accepted)
    (hholds : (Relational.run LimitsWorld.step ({ config } : LimitsWorld τ)
      (firstMoves tx c)).Holds limits) :
    c.minValue = limits.low c.kind ∨ c.maxValue = limits.high c.kind := by
  have hrefusal : c.refusal true = none := haccepted
  obtain ⟨lo, hi, hlo, hhi, -, hsupplied⟩ := hholds.stored c.kind
  have hlo' : c.minValue = lo := by
    simpa [firstMoves, LimitsWorld.step, hrefusal, configInt_persist] using hlo
  have hhi' : limits.high c.kind = hi := by
    simpa [firstMoves, LimitsWorld.step, hrefusal, configInt_persist, (hstored c.kind).2] using hhi
  subst hlo' hhi'
  rcases hsupplied with hstart | hown
  · exact .inl (Prod.mk.inj hstart).1
  · have heq : (⟨c.kind, c.minValue, limits.high c.kind⟩ : SetPair) = c := by
      simpa [firstMoves, LimitsWorld.step, hrefusal] using hown
    exact .inr (congrArg SetPair.maxValue heq).symm

/-- After one command, and another's first statement, the one's maximum stands beside the
other's minimum. -/
theorem keeps_of_both {config : Table String (Option Int)} (tx : τ) {a b : SetPair}
    (hkinds : a.kind = b.kind) (ha : a.Accepted) (hb : b.Accepted)
    (hholds : (Relational.run LimitsWorld.step ({ config } : LimitsWorld τ)
      (firstMoves tx b ++ [.persist tx] ++ firstMoves tx a)).Holds limits) :
    (a.minValue, b.maxValue) = (limits.low a.kind, limits.high a.kind) ∨
      a.minValue = b.minValue ∨ a.maxValue = b.maxValue := by
  have harefusal : a.refusal true = none := ha
  have hbrefusal : b.refusal true = none := hb
  obtain ⟨lo, hi, hlo, hhi, -, hsupplied⟩ := hholds.stored a.kind
  have hlo' : a.minValue = lo := by
    simpa [firstMoves, LimitsWorld.step, harefusal, hbrefusal, configInt_persist] using hlo
  have hhi' : b.maxValue = hi := by
    simpa [firstMoves, LimitsWorld.step, harefusal, hbrefusal, configInt_persist, hkinds] using hhi
  subst hlo' hhi'
  rcases hsupplied with hstart | hown
  · exact .inl hstart
  · have heq : (⟨a.kind, a.minValue, b.maxValue⟩ : SetPair) = b ∨
        (⟨a.kind, a.minValue, b.maxValue⟩ : SetPair) = a := by
      simpa [firstMoves, LimitsWorld.step, harefusal, hbrefusal] using hown
    rcases heq with heq | heq
    · exact .inr (.inl (by simpa using congrArg SetPair.minValue heq))
    · exact .inr (.inr (congrArg SetPair.maxValue heq).symm)

/-- From uncrossed limits, all interleavings of commands and openings, with any failures,
keep the limits uncrossed and a pair that somebody supplied, exactly when for each kind all
accepted commands keep the configured minimum or all keep the configured maximum. -/
theorem limits_hold_iff [Nonempty τ] {config : Table String (Option Int)}
    (hstored : limits.StoredIn config) (allowed : Set SetPair) :
    (∀ moves : List (LimitsMove τ), Gives allowed moves →
      (Relational.run LimitsWorld.step ({ config } : LimitsWorld τ) moves).Holds limits) ↔
    ∀ kind, (∀ c ∈ allowed, c.Accepted → c.kind = kind → c.minValue = limits.low kind) ∨
      ∀ c ∈ allowed, c.Accepted → c.kind = kind → c.maxValue = limits.high kind := by
  constructor
  · intro hall kind
    by_contra hneither
    push Not at hneither
    obtain ⟨⟨a, ha, haccepted, rfl, hlow⟩, ⟨b, hb, hbaccepted, hkinds, hhigh⟩⟩ := hneither
    obtain ⟨tx⟩ := ‹Nonempty τ›
    have hfirst : a.maxValue = limits.high a.kind :=
      (keeps_of_first hstored tx haccepted (hall _ (gives_firstMoves tx ha))).resolve_left hlow
    have hsecond : b.minValue = limits.low b.kind :=
      (keeps_of_first hstored tx hbaccepted (hall _ (gives_firstMoves tx hb))).resolve_right
        (hkinds ▸ hhigh)
    have hgives : Gives allowed (firstMoves tx b ++ [.persist tx] ++ firstMoves tx a) := by
      intro tx' c poolReady hmem
      rcases List.mem_append.mp hmem with hmem | hmem
      · rcases List.mem_append.mp hmem with hmem | hmem
        · exact gives_firstMoves tx hb tx' c poolReady hmem
        · simp at hmem
      · exact gives_firstMoves tx ha tx' c poolReady hmem
    rcases keeps_of_both tx hkinds.symm haccepted hbaccepted (hall _ hgives) with
      hstart | hmin | hmax
    · exact hlow (Prod.mk.inj hstart).1
    · exact hlow (by rw [hmin, hsecond, hkinds])
    · exact hhigh (by rw [← hmax, hfirst])
  · intro hkeeps moves hgives
    exact ((Drawn.start hstored allowed).run hgives).holds hkeeps

end LimitsWorld

/-- The limits of the migrations. -/
def seededLimits : Limits where
  low := fun
    | .deposit => 200
    | .withdraw => 1000
  high := fun _ => 200000
  low_le_high := by rintro (_ | _) <;> decide

theorem seededLimits_stored : seededLimits.StoredIn seedDwConfig := by
  rintro (_ | _) <;> decide +kernel

theorem limits_hold_iff_seeded :
    (∀ moves : List (LimitsMove ℕ), LimitsWorld.Gives {⟨.deposit, 500, 200000⟩} moves →
      (run LimitsWorld.step ({ config := seedDwConfig } : LimitsWorld ℕ) moves).Holds
        seededLimits) ↔
    ∀ kind, (∀ c ∈ ({⟨.deposit, 500, 200000⟩} : Set SetPair), c.Accepted → c.kind = kind →
        c.minValue = seededLimits.low kind) ∨
      ∀ c ∈ ({⟨.deposit, 500, 200000⟩} : Set SetPair), c.Accepted → c.kind = kind →
        c.maxValue = seededLimits.high kind :=
  LimitsWorld.limits_hold_iff seededLimits_stored {⟨.deposit, 500, 200000⟩}

/-- Raising both deposit limits above the old maximum crosses them until the second
statement. -/
theorem limits_cross :
    ¬ (run LimitsWorld.step ({ config := seedDwConfig } : LimitsWorld ℕ)
      [.handle 0 ⟨.deposit, 300000, 400000⟩ true, .persist 0]).Holds seededLimits := by
  intro hholds
  obtain ⟨lo, hi, hlo, hhi, hle, -⟩ := hholds.stored .deposit
  have hmin : configInt (run LimitsWorld.step ({ config := seedDwConfig } : LimitsWorld ℕ)
      [.handle 0 ⟨.deposit, 300000, 400000⟩ true, .persist 0]).config
      LimitKind.deposit.keyMin = some 300000 := by
    decide +kernel
  have hmax : configInt (run LimitsWorld.step ({ config := seedDwConfig } : LimitsWorld ℕ)
      [.handle 0 ⟨.deposit, 300000, 400000⟩ true, .persist 0]).config
      LimitKind.deposit.keyMax = some 200000 := by
    decide +kernel
  obtain rfl := Option.some.inj (hmin.symm.trans hlo)
  obtain rfl := Option.some.inj (hmax.symm.trans hhi)
  exact absurd hle (by decide)

/-! ## What crossed limits do -/

/-- The call that opens a ticket of the kind. -/
def LimitKind.createCall (kind : LimitKind) (d : Option Int) (c r g f : Option String)
    (a t p : Option Int) : Call :=
  match kind with
  | .deposit => .createDepositTicket d c r g f a t p
  | .withdraw => .createWithdrawTicket d c r g f a t p

theorem outOfRange_of_crossed {a : Option Int} {amount lo hi : Int} (ha : a = some amount)
    (hcrossed : hi < lo) : IsLt a (some lo) ∨ IsLt (some hi) a := by
  subst ha
  simp only [isLt_some]
  omega

/-- With crossed limits no ticket of the kind is opened. -/
theorem crossed_refuses {s : Database} {env : Env} {lo hi : Int}
    (hlo : configInt s.dwConfig kind.keyMin = some lo)
    (hhi : configInt s.dwConfig kind.keyMax = some hi)
    (hcrossed : hi < lo) (d : Option Int) (c r g f : Option String) (a t p : Option Int) :
    ¬ (kind.createCall d c r g f a t p).Succeeds env s := by
  intro hok
  have hwp : wp (callBody env (kind.createCall d c r g f a t p)) (fun _ _ => False)
      (fun _ => True) s := by
    cases kind with
    | deposit =>
        have hmin : s.dwInt "min_deposit_g" = some lo := hlo
        have hmax : s.dwInt "max_deposit_g" = some hi := hhi
        simp only [LimitKind.createCall, callBody, createDepositTicket, wp_bind, wp_get,
          wp_require, wp_raiseIf, wp_nextval, hmin, hmax, Option.some.injEq, forall_eq',
          implies_true, true_and]
        intro _ vTtlS _ hrange _ _
        refine openTicket_fresh fun ticket _ _ hamount => ?_
        exact absurd (outOfRange_of_crossed hamount hcrossed) hrange
    | withdraw =>
        have hmin : s.dwInt "min_withdraw_g" = some lo := hlo
        have hmax : s.dwInt "max_withdraw_g" = some hi := hhi
        simp only [LimitKind.createCall, callBody, createWithdrawTicket, wp_bind, wp_get,
          wp_require, wp_raiseIf, wp_nextval, wp_notNull, wp_nullableBigint, hmin, hmax,
          Option.some.injEq, forall_eq', implies_true, true_and]
        intro vFeeBps _ vTtlS _ hrange _ _ vBanned _ _ _ _ owner _ amount hamount
        exact absurd (outOfRange_of_crossed hamount hcrossed) hrange
  exact post_of_outcome hwp (transact_ok Database.rollback (Prod.ext hok rfl))

end DeathRoll
