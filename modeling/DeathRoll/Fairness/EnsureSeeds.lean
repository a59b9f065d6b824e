import DeathRoll.Core.Errors
import DeathRoll.Fairness.UserSeeds

/-! # Ensuring a seed concurrently

`ensure_seeds` over the tables of the seeds: it reads, and when it has found nothing it calls
`fairness.rotate_user_seed` and reads again, three statements that commit on their own. Two
calls that both find nothing get in each other's way: the second insert raises, or the second
call finds the seed of the first and rotates it.
-/

namespace DeathRoll

open Relational

/-- The public state. -/
structure SeedState where
  serverSeedHash : Bytes
  clientSeed : String
  nonce : Int
deriving DecidableEq

def UserSeed.state (row : UserSeed) : SeedState := ⟨row.serverSeedHash, row.clientSeed, row.nonce⟩

/-- What `gen_random_bytes(n)` may return. -/
abbrev RandomBytes (n : ℕ) := { bytes : Bytes // bytes.length = n }

/-- What a call raises. -/
inductive EnsureError where
  | database (error : DbError)
  /-- `assert row is not None`. -/
  | assertion
deriving DecidableEq

/-- How far a call has come. -/
inductive EnsureStage where
  | reading
  /-- `existing` is `None`. -/
  | rotating
  /-- In `rotate_user_seed`, whose `SELECT ... FOR UPDATE` has found nothing. -/
  | notFound (vNewSeed : RandomBytes 32) (clientBytes : RandomBytes 8)
  /-- After the insert of the row. -/
  | inserted
  /-- In `rotate_user_seed`, whose `SELECT ... FOR UPDATE` has found a row. -/
  | found (vNewSeed : RandomBytes 32)
  /-- After the insert into `fairness.history`. -/
  | archived
  /-- After the update of the row. -/
  | updated
  | rereading
  | ended (result : Except EnsureError SeedState)
deriving DecidableEq

/-- The tables, the calls with their users, and the seeds that were generated. -/
structure EnsureWorld (τ : Type) where
  seeds : FairnessWorld τ
  calls : τ → Option (Int × EnsureStage)
  generated : List (Int × RandomBytes 32)

inductive EnsureMove (τ : Type) where
  | start (tx : τ) (discordId : Int)
  /-- The next statement of a call, with the random bytes for it. -/
  | next (tx : τ) (vNewSeed : RandomBytes 32) (clientBytes : RandomBytes 8)

namespace EnsureWorld

variable {τ : Type}

/-- No call yet. -/
def initial (seeds : FairnessWorld τ) : EnsureWorld τ := ⟨seeds, fun _ => none, []⟩

variable [DecidableEq τ]

def goOn (w : EnsureWorld τ) (tx : τ) (discordId : Int) (stage : EnsureStage) : EnsureWorld τ :=
  { w with calls := Function.update w.calls tx (some (discordId, stage)) }

/-- A statement of the call on the tables. -/
def onSeeds (crypto : Crypto) (w : EnsureWorld τ) (statement : FairnessStatement τ) :
    EnsureWorld τ :=
  { w with seeds := w.seeds.step crypto statement }

def generate (w : EnsureWorld τ) (discordId : Int) (vNewSeed : RandomBytes 32) : EnsureWorld τ :=
  { w with generated := w.generated ++ [(discordId, vNewSeed)] }

/-- The next statement of a call; one that has to wait stays where it is. -/
def advance (crypto : Crypto) (w : EnsureWorld τ) (tx : τ) (discordId : Int)
    (vNewSeed : RandomBytes 32) (clientBytes : RandomBytes 8) : EnsureStage → EnsureWorld τ
  | .reading =>
      match w.seeds.committed discordId with
      | some row => w.goOn tx discordId (.ended (.ok row.state))
      | none => w.goOn tx discordId .rotating
  | .rotating =>
      match w.seeds.committed discordId, w.seeds.lockable discordId with
      | none, _ => (w.generate discordId vNewSeed).goOn tx discordId (.notFound vNewSeed clientBytes)
      | some _, none => w
      | some _, some _ =>
          ((w.generate discordId vNewSeed).onSeeds crypto
            (.rotateUserSeed tx discordId "system")).goOn tx discordId (.found vNewSeed)
  | .notFound vNewSeed clientBytes =>
      match (w.seeds.userSeeds discordId).holder, w.seeds.committed discordId with
      -- another insert of the key is not committed yet
      | some _, _ => w
      | none, some _ =>
          w.goOn tx discordId (.ended (.error (.database (.uniqueViolation "user_seeds_pkey"))))
      | none, none =>
          (w.onSeeds crypto (.insertUserSeeds tx discordId vNewSeed clientBytes)).goOn tx discordId
            .inserted
  | .inserted => (w.onSeeds crypto (.commit tx discordId)).goOn tx discordId .rereading
  | .found vNewSeed =>
      (w.onSeeds crypto (.insertHistory tx discordId vNewSeed)).goOn tx discordId .archived
  | .archived => (w.onSeeds crypto (.updateUserSeeds tx discordId)).goOn tx discordId .updated
  | .updated => (w.onSeeds crypto (.commit tx discordId)).goOn tx discordId .rereading
  | .rereading =>
      match w.seeds.committed discordId with
      | some row => w.goOn tx discordId (.ended (.ok row.state))
      | none => w.goOn tx discordId (.ended (.error .assertion))
  | .ended _ => w

def step (crypto : Crypto) (w : EnsureWorld τ) : EnsureMove τ → EnsureWorld τ
  | .start tx discordId =>
      match w.calls tx with
      | none => w.goOn tx discordId .reading
      | some _ => w
  | .next tx vNewSeed clientBytes =>
      match w.calls tx with
      | none => w
      | some (discordId, stage) => w.advance crypto tx discordId vNewSeed clientBytes stage

end EnsureWorld

/-! ## Other users -/

/-- Whose row a statement is about. -/
def FairnessStatement.subject {τ : Type} : FairnessStatement τ → Int
  | .requestOutcomeBytes _ discordId _ | .nextNonce _ discordId | .readSeeds _ discordId
  | .setClientSeed _ discordId _ | .rotateUserSeed _ discordId _ | .insertHistory _ discordId _
  | .updateUserSeeds _ discordId | .insertUserSeeds _ discordId _ _ | .commit _ discordId
  | .rollback _ discordId => discordId

namespace FairnessWorld

variable {τ : Type} [DecidableEq τ] {crypto : Crypto} {w : FairnessWorld τ}
  {statement : FairnessStatement τ} {discordId : Int}

/-- The rows of a user's past. -/
def historyOf (w : FairnessWorld τ) (discordId : Int) : List FairnessHistory :=
  w.history.filter fun row => row.discordId = discordId

omit [DecidableEq τ] in
theorem userSeeds_hold_of_ne {other : Int} (hne : discordId ≠ other) (tx : τ) (work : SeedWork) :
    (w.hold tx other work).userSeeds discordId = w.userSeeds discordId :=
  Function.update_of_ne hne _ _

omit [DecidableEq τ] in
theorem userSeeds_publish_of_ne {other : Int} (hne : discordId ≠ other) (row : UserSeed)
    (outcome : SeedOutcome) :
    (w.publish other row outcome).userSeeds discordId = w.userSeeds discordId :=
  Function.update_of_ne hne _ _

theorem userSeeds_step_of_ne (crypto : Crypto) (w : FairnessWorld τ)
    (hne : discordId ≠ statement.subject) :
    (w.step crypto statement).userSeeds discordId = w.userSeeds discordId := by
  cases statement with
  | setClientSeed tx other newClientSeed =>
      cases hlock : w.lockable other with
      | none => simp only [FairnessWorld.step, hlock]
      | some row =>
          by_cases hregex : MatchesClientSeedRegex newClientSeed
          · simp only [FairnessWorld.step, hlock, if_pos hregex]
            exact userSeeds_hold_of_ne hne tx _
          · simp only [FairnessWorld.step, hlock, if_neg hregex]
  | commit tx other =>
      simp only [FairnessWorld.step]
      split
      next row outcome _ => exact userSeeds_publish_of_ne hne row outcome
      next => rfl
  | rollback tx other => exact Function.update_of_ne hne _ _
  | _ =>
      simp only [FairnessWorld.step]
      repeat' split
      all_goals first | exact userSeeds_hold_of_ne hne _ _ | rfl

/-- A commit archives nothing but the past of its own user. -/
theorem historyOf_step_of_ne (hsound : w.Sound crypto) (hne : discordId ≠ statement.subject) :
    (w.step crypto statement).historyOf discordId = w.historyOf discordId := by
  cases statement with
  | commit tx other =>
      simp only [FairnessWorld.step]
      split
      next row outcome hfinished =>
        obtain ⟨work, hheld, hwork⟩ := Option.bind_eq_some_iff.mp hfinished
        have htakes := (hsound.heldBy hheld).takes hwork
        generalize w.committed other = before at htakes
        rw [historyOf, historyOf, publish, List.filter_append]
        cases htakes with
        | rotated row rotatedBy newSeed =>
            have hother : other ≠ discordId := fun hsame => hne hsame.symm
            simp [SeedOutcome.history, UserSeed.archive, hother]
        | _ => simp [SeedOutcome.history]
      next => rfl
  | rollback tx other => rfl
  | _ =>
      simp only [FairnessWorld.step]
      repeat' split
      all_goals rfl

end FairnessWorld

namespace EnsureWorld

variable {τ : Type} [DecidableEq τ] {crypto : Crypto} {w w' : EnsureWorld τ} {discordId : Int}

def generatedFor (w : EnsureWorld τ) (discordId : Int) : List (Int × RandomBytes 32) :=
  w.generated.filter fun made => made.1 = discordId

/-- Two worlds that are the same for a user. -/
structure SameFor (discordId : Int) (w w' : EnsureWorld τ) : Prop where
  userSeeds : w'.seeds.userSeeds discordId = w.seeds.userSeeds discordId
  history : w'.seeds.historyOf discordId = w.seeds.historyOf discordId
  generated : w'.generatedFor discordId = w.generatedFor discordId
  calls : ∀ tx stage, w'.calls tx = some (discordId, stage) ↔ w.calls tx = some (discordId, stage)

/-- How far a call is that has found no seed, from its first `SELECT` to the commit of
`rotate_user_seed`. -/
def Searching : EnsureStage → Prop
  | .rotating | .notFound .. | .inserted | .found _ | .archived | .updated => True
  | .reading | .rereading | .ended _ => False

/-- If the move is the first `SELECT` of a call for the user, there is a seed to find, or no
other call for the user is searching. -/
def ReadsAlone (discordId : Int) (w : EnsureWorld τ) : EnsureMove τ → Prop
  | .start _ _ => True
  | .next tx _ _ => w.calls tx = some (discordId, .reading) → w.seeds.committed discordId ≠ none ∨
      ∀ other stage, w.calls other = some (discordId, stage) → ¬ Searching stage

theorem sound_advance (hsound : w.seeds.Sound crypto) (tx : τ) (other : Int)
    (vNewSeed : RandomBytes 32) (clientBytes : RandomBytes 8) (stage : EnsureStage) :
    (w.advance crypto tx other vNewSeed clientBytes stage).seeds.Sound crypto := by
  have hstatement : ∀ statement, (w.onSeeds crypto statement).seeds.Sound crypto :=
    FairnessWorld.sound_step hsound
  cases stage with
  | reading | rereading =>
      simp only [advance]
      split
      · exact hsound
      · exact hsound
  | rotating =>
      simp only [advance]
      split
      · exact hsound
      · exact hsound
      · exact hstatement (.rotateUserSeed tx other "system")
  | notFound vNewSeed clientBytes =>
      simp only [advance]
      split
      · exact hsound
      · exact hsound
      · exact hstatement (.insertUserSeeds tx other vNewSeed clientBytes)
  | inserted => exact hstatement (.commit tx other)
  | found vNewSeed => exact hstatement (.insertHistory tx other vNewSeed)
  | archived => exact hstatement (.updateUserSeeds tx other)
  | updated => exact hstatement (.commit tx other)
  | ended result => exact hsound

theorem sound_step (hsound : w.seeds.Sound crypto) (move : EnsureMove τ) :
    (w.step crypto move).seeds.Sound crypto := by
  cases move with
  | start tx other =>
      simp only [step]
      split
      · exact hsound
      · exact hsound
  | next tx vNewSeed clientBytes =>
      simp only [step]
      split
      next => exact hsound
      next other stage hcall => exact sound_advance hsound tx other vNewSeed clientBytes stage

theorem SameFor.goOn (hsame : SameFor discordId w w') {tx : τ} {other : Int}
    (hne : discordId ≠ other) {stage stage' : EnsureStage} (hcall : w'.calls tx = some (other, stage)) :
    SameFor discordId w (w'.goOn tx other stage') := by
  refine ⟨hsame.userSeeds, hsame.history, hsame.generated, fun tx' stage'' => ?_⟩
  rw [← hsame.calls]
  by_cases htx : tx' = tx
  · subst htx
    simp [EnsureWorld.goOn, hcall, hne.symm]
  · simp [EnsureWorld.goOn, htx]

theorem SameFor.onSeeds (hsame : SameFor discordId w w') (hsound : w'.seeds.Sound crypto)
    (statement : FairnessStatement τ) (hne : discordId ≠ statement.subject) :
    SameFor discordId w (w'.onSeeds crypto statement) :=
  ⟨(FairnessWorld.userSeeds_step_of_ne crypto _ hne).trans hsame.userSeeds,
    (FairnessWorld.historyOf_step_of_ne hsound hne).trans hsame.history, hsame.generated, hsame.calls⟩

omit [DecidableEq τ] in
theorem SameFor.generate (hsame : SameFor discordId w w') {other : Int} (hne : discordId ≠ other)
    (vNewSeed : RandomBytes 32) : SameFor discordId w (w'.generate other vNewSeed) := by
  refine ⟨hsame.userSeeds, hsame.history, ?_, hsame.calls⟩
  rw [← hsame.generated]
  simp [generatedFor, EnsureWorld.generate, hne.symm]

/-- A call for another user changes nothing for the user. -/
theorem sameFor_advance (hsound : w.seeds.Sound crypto) {tx : τ} {other : Int}
    (hne : discordId ≠ other) {stage : EnsureStage} (hcall : w.calls tx = some (other, stage))
    (vNewSeed : RandomBytes 32) (clientBytes : RandomBytes 8) :
    SameFor discordId w (w.advance crypto tx other vNewSeed clientBytes stage) := by
  have hrefl : SameFor discordId w w := ⟨rfl, rfl, rfl, fun _ _ => Iff.rfl⟩
  have hstatement : ∀ statement : FairnessStatement τ, discordId ≠ statement.subject →
      SameFor discordId w (w.onSeeds crypto statement) := hrefl.onSeeds hsound
  cases stage with
  | reading =>
      simp only [advance]
      split
      · exact hrefl.goOn hne hcall
      · exact hrefl.goOn hne hcall
  | rotating =>
      simp only [advance]
      split
      · exact (hrefl.generate hne vNewSeed).goOn hne hcall
      · exact hrefl
      · exact ((hrefl.generate hne vNewSeed).onSeeds hsound
          (.rotateUserSeed tx other "system") hne).goOn hne hcall
  | notFound vNewSeed clientBytes =>
      simp only [advance]
      split
      · exact hrefl
      · exact hrefl.goOn hne hcall
      · exact (hstatement (.insertUserSeeds tx other vNewSeed clientBytes) hne).goOn hne hcall
  | inserted => exact (hstatement (.commit tx other) hne).goOn hne hcall
  | found vNewSeed => exact (hstatement (.insertHistory tx other vNewSeed) hne).goOn hne hcall
  | archived => exact (hstatement (.updateUserSeeds tx other) hne).goOn hne hcall
  | updated => exact (hstatement (.commit tx other) hne).goOn hne hcall
  | rereading =>
      simp only [advance]
      split
      · exact hrefl.goOn hne hcall
      · exact hrefl.goOn hne hcall
  | ended result => exact hrefl

/-! ## Calls that search one at a time -/

omit [DecidableEq τ] in
theorem Searching.not_reading {stage : EnsureStage} (h : Searching stage) : stage ≠ .reading := by
  rintro rfl
  exact h

/-- How many statements a call has left at most. -/
def remaining : EnsureStage → ℕ
  | .reading => 6
  | .rotating => 5
  | .found _ => 4
  | .notFound .. | .archived => 3
  | .inserted | .updated => 2
  | .rereading => 1
  | .ended _ => 0

/-- The bootstrap of a user: nobody has found anything out, or one call is searching, or the
seed is there. -/
inductive Bootstraps (discordId : Int) (w : EnsureWorld τ) : Prop
  | fresh (hcell : w.seeds.userSeeds discordId = .free none)
      (hcalls : ∀ tx stage, w.calls tx = some (discordId, stage) → stage = .reading)
      (hgenerated : w.generatedFor discordId = [])
  | rotating (tx : τ) (hcell : w.seeds.userSeeds discordId = .free none)
      (hcall : w.calls tx = some (discordId, .rotating))
      (hothers : ∀ other stage, other ≠ tx → w.calls other = some (discordId, stage) →
        stage = .reading)
      (hgenerated : w.generatedFor discordId = [])
  | notFound (tx : τ) (vNewSeed : RandomBytes 32) (clientBytes : RandomBytes 8)
      (hcell : w.seeds.userSeeds discordId = .free none)
      (hcall : w.calls tx = some (discordId, .notFound vNewSeed clientBytes))
      (hothers : ∀ other stage, other ≠ tx → w.calls other = some (discordId, stage) →
        stage = .reading)
      (hgenerated : (w.generatedFor discordId).length = 1)
  | inserted (tx : τ) (row : UserSeed)
      (hcell : w.seeds.userSeeds discordId = (RowLock.free none).hold tx (.created row))
      (hnonce : row.nonce = 0) (hcall : w.calls tx = some (discordId, .inserted))
      (hothers : ∀ other stage, other ≠ tx → w.calls other = some (discordId, stage) →
        stage = .reading)
      (hgenerated : (w.generatedFor discordId).length = 1)
  | done (row : UserSeed) (hcell : w.seeds.userSeeds discordId = .free (some row))
      (hnonce : row.nonce = 0)
      (hcalls : ∀ tx stage, w.calls tx = some (discordId, stage) →
        stage = .reading ∨ stage = .rereading ∨ stage = .ended (.ok row.state))
      (hgenerated : (w.generatedFor discordId).length = 1)

omit [DecidableEq τ] in
theorem Bootstraps.sameFor (h : Bootstraps discordId w) (hsame : SameFor discordId w w') :
    Bootstraps discordId w' := by
  cases h with
  | fresh hcell hcalls hgenerated =>
      exact .fresh (hsame.userSeeds.trans hcell)
        (fun tx stage hcall => hcalls tx stage ((hsame.calls tx stage).mp hcall))
        (hsame.generated.trans hgenerated)
  | rotating tx hcell hcall hothers hgenerated =>
      exact .rotating tx (hsame.userSeeds.trans hcell) ((hsame.calls tx _).mpr hcall)
        (fun other stage hne hother => hothers other stage hne ((hsame.calls other stage).mp hother))
        (hsame.generated.trans hgenerated)
  | notFound tx vNewSeed clientBytes hcell hcall hothers hgenerated =>
      exact .notFound tx vNewSeed clientBytes (hsame.userSeeds.trans hcell)
        ((hsame.calls tx _).mpr hcall)
        (fun other stage hne hother => hothers other stage hne ((hsame.calls other stage).mp hother))
        (hsame.generated ▸ hgenerated)
  | inserted tx row hcell hnonce hcall hothers hgenerated =>
      exact .inserted tx row (hsame.userSeeds.trans hcell) hnonce ((hsame.calls tx _).mpr hcall)
        (fun other stage hne hother => hothers other stage hne ((hsame.calls other stage).mp hother))
        (hsame.generated ▸ hgenerated)
  | done row hcell hnonce hcalls hgenerated =>
      exact .done row (hsame.userSeeds.trans hcell) hnonce
        (fun tx stage hcall => hcalls tx stage ((hsame.calls tx stage).mp hcall))
        (hsame.generated ▸ hgenerated)

theorem calls_goOn_self (w : EnsureWorld τ) (tx : τ) (stage : EnsureStage) :
    (w.goOn tx discordId stage).calls tx = some (discordId, stage) :=
  Function.update_self _ _ _

theorem calls_goOn_of_ne (w : EnsureWorld τ) {tx other : τ} (hne : other ≠ tx)
    (stage : EnsureStage) : (w.goOn tx discordId stage).calls other = w.calls other :=
  Function.update_of_ne hne _ _

theorem Bootstraps.start (h : Bootstraps discordId w) {tx : τ} (hfree : w.calls tx = none) :
    Bootstraps discordId (w.goOn tx discordId .reading) := by
  have hbefore : ∀ {other stage}, (w.goOn tx discordId .reading).calls other =
      some (discordId, stage) → stage = .reading ∨ w.calls other = some (discordId, stage) := by
    intro other stage hcall
    by_cases hother : other = tx
    · subst hother
      rw [calls_goOn_self, Option.some.injEq, Prod.mk.injEq] at hcall
      exact .inl hcall.2.symm
    · rw [calls_goOn_of_ne w hother] at hcall
      exact .inr hcall
  have hkept : ∀ {other stage}, w.calls other = some (discordId, stage) →
      (w.goOn tx discordId .reading).calls other = some (discordId, stage) := by
    intro other stage hcall
    rw [calls_goOn_of_ne w (by rintro rfl; rw [hfree] at hcall; cases hcall), hcall]
  cases h with
  | fresh hcell hcalls hgenerated =>
      exact .fresh hcell (fun tx stage hcall => (hbefore hcall).elim id (hcalls tx stage)) hgenerated
  | rotating first hcell hcall hothers hgenerated =>
      exact .rotating first hcell (hkept hcall)
        (fun other stage hne hother => (hbefore hother).elim id (hothers other stage hne)) hgenerated
  | notFound first vNewSeed clientBytes hcell hcall hothers hgenerated =>
      exact .notFound first vNewSeed clientBytes hcell (hkept hcall)
        (fun other stage hne hother => (hbefore hother).elim id (hothers other stage hne)) hgenerated
  | inserted first row hcell hnonce hcall hothers hgenerated =>
      exact .inserted first row hcell hnonce (hkept hcall)
        (fun other stage hne hother => (hbefore hother).elim id (hothers other stage hne)) hgenerated
  | done row hcell hnonce hcalls hgenerated =>
      exact .done row hcell hnonce
        (fun tx stage hcall => (hbefore hcall).elim .inl (hcalls tx stage)) hgenerated

/-- The statement of a call that does not wait. -/
structure Proceeds (discordId : Int) (tx : τ) (stage : EnsureStage) (w w' : EnsureWorld τ) :
    Prop where
  bootstraps : Bootstraps discordId w'
  history : w'.seeds.historyOf discordId = w.seeds.historyOf discordId
  moves_on : ∃ stage', w'.calls tx = some (discordId, stage') ∧ remaining stage' ≤ remaining stage - 1

theorem others_goOn {tx : τ} {stage : EnsureStage}
    (hothers : ∀ other stage, other ≠ tx → w.calls other = some (discordId, stage) →
      stage = .reading) :
    ∀ other stage', other ≠ tx → (w.goOn tx discordId stage).calls other =
      some (discordId, stage') → stage' = .reading := by
  intro other stage' hne hcall
  rw [calls_goOn_of_ne w hne] at hcall
  exact hothers other stage' hne hcall

/-- Once the seed is there, a call returns it. -/
theorem proceeds_done {row : UserSeed} (hcell : w.seeds.userSeeds discordId = .free (some row))
    (hnonce : row.nonce = 0)
    (hcalls : ∀ tx stage, w.calls tx = some (discordId, stage) →
      stage = .reading ∨ stage = .rereading ∨ stage = .ended (.ok row.state))
    (hgenerated : (w.generatedFor discordId).length = 1) {tx : τ} {stage : EnsureStage}
    (hcall : w.calls tx = some (discordId, stage)) (vNewSeed : RandomBytes 32)
    (clientBytes : RandomBytes 8) :
    Proceeds discordId tx stage w (w.advance crypto tx discordId vNewSeed clientBytes stage) := by
  have hcommitted : w.seeds.committed discordId = some row := by
    rw [FairnessWorld.committed, hcell]
    rfl
  have hended : Bootstraps discordId (w.goOn tx discordId (.ended (.ok row.state))) := by
    refine .done row hcell hnonce (fun other stage' hother => ?_) hgenerated
    by_cases htx : other = tx
    · subst htx
      rw [calls_goOn_self, Option.some.injEq, Prod.mk.injEq] at hother
      exact .inr (.inr hother.2.symm)
    · rw [calls_goOn_of_ne w htx] at hother
      exact hcalls other stage' hother
  rcases hcalls tx stage hcall with rfl | rfl | rfl
  · simp only [advance, hcommitted]
    exact ⟨hended, rfl, _, calls_goOn_self w tx _, Nat.zero_le _⟩
  · simp only [advance, hcommitted]
    exact ⟨hended, rfl, _, calls_goOn_self w tx _, Nat.zero_le _⟩
  · exact ⟨.done row hcell hnonce hcalls hgenerated, rfl, _, hcall, Nat.zero_le _⟩

theorem Bootstraps.advance (h : Bootstraps discordId w) (crypto : Crypto) {tx : τ}
    {stage : EnsureStage}
    (hcall : w.calls tx = some (discordId, stage)) (vNewSeed : RandomBytes 32)
    (clientBytes : RandomBytes 8)
    (halone : stage = .reading → w.seeds.committed discordId ≠ none ∨
      ∀ other stage, w.calls other = some (discordId, stage) → ¬ Searching stage) :
    Proceeds discordId tx stage w (w.advance crypto tx discordId vNewSeed clientBytes stage) := by
  -- Another call that is searching keeps this one from its first `SELECT`.
  have hown : ∀ {first : τ} {searching : EnsureStage}, w.seeds.committed discordId = none →
      w.calls first = some (discordId, searching) → Searching searching →
      (∀ other stage, other ≠ first → w.calls other = some (discordId, stage) →
        stage = .reading) → tx = first ∧ stage = searching := by
    intro first searching hnone hfirst hsearching hothers
    by_cases htx : tx = first
    · subst htx
      rw [hfirst, Option.some.injEq, Prod.mk.injEq] at hcall
      exact ⟨rfl, hcall.2.symm⟩
    · rcases halone (hothers tx stage htx hcall) with hsome | hidle
      · exact absurd hnone hsome
      · exact absurd hsearching (hidle first searching hfirst)
  have hcommitted : ∀ {cell : RowLock τ (Option UserSeed) SeedWork},
      w.seeds.userSeeds discordId = cell → w.seeds.committed discordId = cell.committed := by
    rintro cell rfl
    rfl
  cases h with
  | fresh hcell hcalls hgenerated =>
      obtain rfl := hcalls tx stage hcall
      simp only [EnsureWorld.advance, hcommitted hcell, RowLock.free_committed]
      refine ⟨.rotating tx hcell (calls_goOn_self w tx _) (others_goOn fun other stage _ =>
        hcalls other stage) hgenerated, rfl, _, calls_goOn_self w tx _, le_rfl⟩
  | rotating first hcell hfirst hothers hgenerated =>
      obtain ⟨rfl, rfl⟩ := hown (hcommitted hcell) hfirst trivial hothers
      simp only [EnsureWorld.advance, hcommitted hcell, RowLock.free_committed]
      refine ⟨.notFound tx vNewSeed clientBytes hcell (calls_goOn_self _ tx _)
        (others_goOn hothers) ?_, rfl, _, calls_goOn_self _ tx _, by simp [remaining]⟩
      have hmade : (w.generate discordId vNewSeed).generatedFor discordId =
          w.generatedFor discordId ++ [(discordId, vNewSeed)] := by
        simp [generatedFor, generate]
      change ((w.generate discordId vNewSeed).generatedFor discordId).length = 1
      rw [hmade, hgenerated]
      rfl
  | notFound first vNewSeed clientBytes hcell hfirst hothers hgenerated =>
      obtain ⟨rfl, rfl⟩ := hown (hcommitted hcell) hfirst trivial hothers
      have hholder : (w.seeds.userSeeds discordId).holder = none := by
        rw [hcell]
        rfl
      have hstep : w.seeds.step crypto (.insertUserSeeds tx discordId vNewSeed clientBytes) =
          w.seeds.hold tx discordId (.created ⟨vNewSeed.1, crypto.sha256 vNewSeed.1,
            encodeHex clientBytes.1, 0⟩) := by
        simp only [FairnessWorld.step, hholder, hcommitted hcell, RowLock.free_committed,
          if_pos clientBytes.2]
      simp only [EnsureWorld.advance, hholder, hcommitted hcell, RowLock.free_committed, onSeeds,
        hstep]
      refine ⟨.inserted tx ⟨vNewSeed.1, crypto.sha256 vNewSeed.1, encodeHex clientBytes.1, 0⟩ ?_ rfl
        (calls_goOn_self _ tx _) (others_goOn hothers) hgenerated, rfl, _, calls_goOn_self _ tx _,
        by simp [remaining]⟩
      simp [EnsureWorld.goOn, FairnessWorld.hold, hcell]
  | inserted first row hcell hnonce hfirst hothers hgenerated =>
      obtain ⟨rfl, rfl⟩ := hown (hcommitted hcell) hfirst trivial hothers
      have hstep : w.seeds.step crypto (.commit tx discordId) =
          w.seeds.publish discordId row (.created discordId row.serverSeed) := by
        simp [FairnessWorld.step, hcell, RowLock.heldBy_hold, SeedWork.finished]
      simp only [EnsureWorld.advance, onSeeds, hstep]
      refine ⟨.done row ?_ hnonce (fun other stage hother => ?_) hgenerated, ?_, _,
        calls_goOn_self _ tx _, by decide⟩
      · simp [EnsureWorld.goOn, FairnessWorld.publish]
      · by_cases htx : other = tx
        · subst htx
          rw [calls_goOn_self, Option.some.injEq, Prod.mk.injEq] at hother
          exact .inr (.inl hother.2.symm)
        · exact .inl (others_goOn hothers other stage htx hother)
      · simp [EnsureWorld.goOn, FairnessWorld.publish, FairnessWorld.historyOf, SeedOutcome.history]
  | done row hcell hnonce hcalls hgenerated =>
      exact proceeds_done hcell hnonce hcalls hgenerated hcall vNewSeed clientBytes

theorem sameFor_start {tx : τ} (hfree : w.calls tx = none) {other : Int} (hne : discordId ≠ other) :
    SameFor discordId w (w.goOn tx other .reading) := by
  refine ⟨rfl, rfl, rfl, fun tx' stage => ?_⟩
  by_cases htx : tx' = tx
  · subst htx
    simp [EnsureWorld.goOn, hfree, hne.symm]
  · simp [EnsureWorld.goOn, htx]

/-- What holds of a user while calls search one at a time. -/
structure InOrder (crypto : Crypto) (discordId : Int) (w : EnsureWorld τ) : Prop where
  sound : w.seeds.Sound crypto
  bootstraps : Bootstraps discordId w
  history : w.seeds.historyOf discordId = []

omit [DecidableEq τ] in
theorem InOrder.sameFor (h : InOrder crypto discordId w) (hsound : w'.seeds.Sound crypto)
    (hsame : SameFor discordId w w') : InOrder crypto discordId w' :=
  ⟨hsound, h.bootstraps.sameFor hsame, hsame.history.trans h.history⟩

theorem InOrder.step (h : InOrder crypto discordId w) {move : EnsureMove τ}
    (halone : ReadsAlone discordId w move) : InOrder crypto discordId (w.step crypto move) := by
  have hsound := sound_step h.sound move
  cases move with
  | start tx other =>
      simp only [EnsureWorld.step] at hsound ⊢
      split at hsound
      next hfree =>
        by_cases hother : discordId = other
        · subst hother
          exact ⟨hsound, h.bootstraps.start hfree, h.history⟩
        · exact h.sameFor hsound (sameFor_start hfree hother)
      next => exact h
  | next tx vNewSeed clientBytes =>
      simp only [EnsureWorld.step] at hsound ⊢
      split at hsound
      next => exact h
      next other stage hcall =>
        by_cases hother : discordId = other
        · subst hother
          have hproceeds := h.bootstraps.advance crypto hcall vNewSeed clientBytes
            fun hreading => halone (by rw [hcall, hreading])
          exact ⟨hsound, hproceeds.bootstraps, hproceeds.history.trans h.history⟩
        · exact h.sameFor hsound (sameFor_advance h.sound hother hcall vNewSeed clientBytes)

/-! ### What a call returns -/

/-- The bootstrap that the calls have made. -/
structure Bootstrapped (discordId : Int) (w : EnsureWorld τ) : Prop where
  returned : ∃ state : SeedState, state.nonce = 0 ∧
    ∀ tx result, w.calls tx = some (discordId, .ended result) → result = .ok state
  generated_le : (w.generatedFor discordId).length ≤ 1
  generated : ∀ tx result, w.calls tx = some (discordId, .ended result) →
    (w.generatedFor discordId).length = 1
  history : w.seeds.historyOf discordId = []

omit [DecidableEq τ] in
theorem Bootstraps.bootstrapped (h : Bootstraps discordId w)
    (hhistory : w.seeds.historyOf discordId = []) : Bootstrapped discordId w := by
  have hnone : (∀ tx result, w.calls tx ≠ some (discordId, .ended result)) →
      (w.generatedFor discordId).length ≤ 1 → Bootstrapped discordId w := fun hended hgenerated =>
    ⟨⟨⟨[], "", 0⟩, rfl, fun tx result hcall => absurd hcall (hended tx result)⟩, hgenerated,
      fun tx result hcall => absurd hcall (hended tx result), hhistory⟩
  have hfirst : ∀ {first : τ} {stage : EnsureStage}, w.calls first = some (discordId, stage) →
      Searching stage → (∀ other stage, other ≠ first →
        w.calls other = some (discordId, stage) → stage = .reading) →
      ∀ tx result, w.calls tx ≠ some (discordId, .ended result) := by
    intro first stage hcall hsearching hothers tx result hended
    by_cases htx : tx = first
    · subst htx
      rw [hcall, Option.some.injEq, Prod.mk.injEq] at hended
      rw [hended.2] at hsearching
      exact hsearching
    · exact absurd (hothers tx _ htx hended) (by simp)
  cases h with
  | fresh hcell hcalls hgenerated =>
      exact hnone (fun tx result hcall => absurd (hcalls tx _ hcall) (by simp)) (by simp [hgenerated])
  | rotating first hcell hcall hothers hgenerated =>
      exact hnone (hfirst hcall trivial hothers) (by simp [hgenerated])
  | notFound first vNewSeed clientBytes hcell hcall hothers hgenerated =>
      exact hnone (hfirst hcall trivial hothers) hgenerated.le
  | inserted first row hcell hnonce hcall hothers hgenerated =>
      exact hnone (hfirst hcall trivial hothers) hgenerated.le
  | done row hcell hnonce hcalls hgenerated =>
      refine ⟨⟨row.state, hnonce, fun tx result hcall => ?_⟩, hgenerated.le,
        fun _ _ _ => hgenerated, hhistory⟩
      simpa using hcalls tx _ hcall

/-- The transaction whose statement a move is. -/
def nextOf : EnsureMove τ → Option τ
  | .start _ _ => none
  | .next tx _ _ => some tx

theorem calls_advance_of_ne (crypto : Crypto) (w : EnsureWorld τ) {tx other : τ} (hne : other ≠ tx)
    (discordId : Int) (vNewSeed : RandomBytes 32) (clientBytes : RandomBytes 8)
    (stage : EnsureStage) :
    (w.advance crypto tx discordId vNewSeed clientBytes stage).calls other = w.calls other := by
  cases stage <;> simp only [advance]
  all_goals repeat' split
  all_goals first | rfl | exact calls_goOn_of_ne _ hne _

/-- A call only goes on by its own statements. -/
theorem calls_step_of_ne (crypto : Crypto) {tx : τ} (hstarted : w.calls tx ≠ none)
    {move : EnsureMove τ} (hne : nextOf move ≠ some tx) :
    (w.step crypto move).calls tx = w.calls tx := by
  cases move with
  | start other discordId =>
      simp only [step]
      split
      next hfree =>
        have hother : tx ≠ other := by
          rintro rfl
          exact hstarted hfree
        exact calls_goOn_of_ne w hother _
      next => rfl
  | next other vNewSeed clientBytes =>
      have hother : tx ≠ other := fun hsame => hne (congrArg some hsame.symm)
      simp only [step]
      split
      next => rfl
      next => exact calls_advance_of_ne crypto w hother _ _ _ _

/-- A call that is not kept waiting has fewer statements left with each that it makes. -/
theorem remaining_run (h : InOrder crypto discordId w) {moves : List (EnsureMove τ)}
    (halone : ∀ before move, (before, move) ∈ steps (step crypto) w moves →
      ReadsAlone discordId before move) {tx : τ} {stage : EnsureStage}
    (hcall : w.calls tx = some (discordId, stage)) :
    ∃ stage', (run (step crypto) w moves).calls tx = some (discordId, stage') ∧
      remaining stage' ≤ remaining stage - moves.countP fun move => nextOf move = some tx := by
  induction moves generalizing w stage with
  | nil => exact ⟨stage, hcall, le_rfl⟩
  | cons move moves ih =>
      have hfirst := halone w move List.mem_cons_self
      obtain ⟨stage₁, hcall₁, hle₁⟩ : ∃ stage₁, (w.step crypto move).calls tx =
          some (discordId, stage₁) ∧
            remaining stage₁ ≤ remaining stage - if nextOf move = some tx then 1 else 0 := by
        split_ifs with hmove
        · cases move with
          | start => cases hmove
          | next other vNewSeed clientBytes =>
              cases hmove
              simp only [step, hcall]
              exact (h.bootstraps.advance crypto hcall vNewSeed clientBytes
                fun hreading => hfirst (by rw [hcall, hreading])).moves_on
        · refine ⟨stage, ?_, le_rfl⟩
          rw [calls_step_of_ne crypto (by rw [hcall]; simp) hmove, hcall]
      obtain ⟨stage', hcall', hle'⟩ := ih (h.step hfirst)
        (fun before later hmem => halone before later (List.mem_cons_of_mem _ hmem)) hcall₁
      refine ⟨stage', hcall', ?_⟩
      rw [List.countP_cons]
      simp only [decide_eq_true_eq]
      omega

end EnsureWorld

end DeathRoll
