import DeathRoll.Fairness.Engine
import DeathRoll.Relational.RowLock
import DeathRoll.Relational.Run

/-! # Drawing from and rotating a seed concurrently

`fairness.user_seeds` and `fairness.history` under the transactions that use
them, statement by statement: `request_outcome_bytes` with `fairness.next_nonce`,
`set_client_seed`, and `fairness.rotate_user_seed`. `ensure_seeds` reads, and when
it found nothing it calls the last of these with `'system'`, whatever happened in
between. A transaction works on one user's row.
-/

namespace DeathRoll

open Relational

inductive RotatedBy where
  | user
  | system
  | admin
deriving DecidableEq

def RotatedBy.ofText : String → Option RotatedBy
  | "user" => some .user
  | "system" => some .system
  | "admin" => some .admin
  | _ => none

/-- A row of `fairness.user_seeds`, stored under its `discord_id`. -/
structure UserSeed where
  serverSeed : Bytes
  serverSeedHash : Bytes
  clientSeed : String
  nonce : Int
deriving DecidableEq

/-- A row of `fairness.history`. -/
structure FairnessHistory where
  discordId : Int
  revealedServerSeed : Bytes
  serverSeedHash : Bytes
  clientSeed : String
  lastNonce : Int
  rotatedBy : RotatedBy
deriving DecidableEq

/-- The row that archives a seed. -/
def UserSeed.archive (seed : UserSeed) (discordId : Int) (rotatedBy : RotatedBy) :
    FairnessHistory :=
  ⟨discordId, seed.serverSeed, seed.serverSeedHash, seed.clientSeed, seed.nonce, rotatedBy⟩

/-- What `request_outcome_bytes` has read when its transaction commits. -/
structure Draw where
  byteCount : Int
  rawSeed : Bytes
  publicHash : Bytes
  clientSeed : String
  nonce : Int
deriving DecidableEq

structure FairnessTicket where
  hmacBytes : Bytes
  serverSeedHash : Bytes
  clientSeed : String
  nonce : Int
deriving DecidableEq

/-- The rest of `request_outcome_bytes`, after the commit. -/
def Draw.ticket (crypto : Crypto) (draw : Draw) : Option FairnessTicket := do
  let head := compute crypto draw.rawSeed draw.clientSeed draw.nonce
  let bytesOut ← extend crypto head draw.byteCount.toNat
  return ⟨bytesOut, draw.publicHash, draw.clientSeed, draw.nonce⟩

/-- What a transaction that holds a user's row has done so far. -/
inductive SeedWork where
  /-- `request_outcome_bytes` after its `SELECT 1 ... FOR UPDATE`. -/
  | locked (row : UserSeed) (byteCount : Int)
  /-- After `fairness.next_nonce`. -/
  | counted (row : UserSeed) (byteCount usedNonce : Int)
  /-- After the seeds have been read. -/
  | drawn (row : UserSeed) (draw : Draw)
  /-- `set_client_seed` after its `UPDATE`. -/
  | clientSeedSet (row : UserSeed)
  /-- `fairness.rotate_user_seed` after its `SELECT * INTO v_existing ... FOR UPDATE`. -/
  | selected (vExisting : UserSeed) (rotatedBy : RotatedBy)
  /-- After the insert into `fairness.history`, with the new seed at hand. -/
  | archived (row : UserSeed) (history : FairnessHistory) (vNewSeed : Bytes)
  /-- After the update of the row. -/
  | rotated (row : UserSeed) (history : FairnessHistory)
  /-- After the insert of a first row. -/
  | created (row : UserSeed)

/-- What a committed transaction did. -/
inductive SeedOutcome where
  | drew (discordId : Int) (draw : Draw)
  | clientSeedSet (discordId : Int) (clientSeed : String)
  | rotated (history : FairnessHistory) (newSeed : Bytes)
  | created (discordId : Int) (newSeed : Bytes)
deriving DecidableEq

/-- The row of `fairness.history` that an outcome comes with. -/
def SeedOutcome.history : SeedOutcome → Option FairnessHistory
  | .rotated history _ => some history
  | _ => none

/-- The row and the outcome that a transaction may commit, once it is through. -/
def SeedWork.finished (discordId : Int) : SeedWork → Option (UserSeed × SeedOutcome)
  | .drawn row draw => some (row, .drew discordId draw)
  | .clientSeedSet row => some (row, .clientSeedSet discordId row.clientSeed)
  | .rotated row history => some (row, .rotated history row.serverSeed)
  | .created row => some (row, .created discordId row.serverSeed)
  | .locked .. | .counted .. | .selected .. | .archived .. => none

/-- The two tables, and what committed transactions did, in the order of their commits. -/
structure FairnessWorld (τ : Type) where
  userSeeds : Int → RowLock τ (Option UserSeed) SeedWork
  history : List FairnessHistory
  log : List SeedOutcome

inductive FairnessStatement (τ : Type) where
  | requestOutcomeBytes (tx : τ) (discordId byteCount : Int)
  | nextNonce (tx : τ) (discordId : Int)
  | readSeeds (tx : τ) (discordId : Int)
  | setClientSeed (tx : τ) (discordId : Int) (newClientSeed : String)
  | rotateUserSeed (tx : τ) (discordId : Int) (pRotatedBy : String)
  | insertHistory (tx : τ) (discordId : Int) (vNewSeed : Bytes)
  | updateUserSeeds (tx : τ) (discordId : Int)
  | insertUserSeeds (tx : τ) (discordId : Int) (vNewSeed clientBytes : Bytes)
  | commit (tx : τ) (discordId : Int)
  | rollback (tx : τ) (discordId : Int)

/-- The values of `gen_random_bytes(32)` that the statements draw. -/
def FairnessStatement.generated {τ : Type} : FairnessStatement τ → Option Bytes
  | .insertHistory _ _ vNewSeed => some vNewSeed
  | .insertUserSeeds _ _ vNewSeed _ => some vNewSeed
  | _ => none

namespace FairnessWorld

variable {τ : Type}

/-- No seed, no history. -/
def empty : FairnessWorld τ := ⟨fun _ => .free none, [], []⟩

/-- The committed row of a user. -/
def committed (w : FairnessWorld τ) (discordId : Int) : Option UserSeed :=
  (w.userSeeds discordId).committed

/-- The row of a user for a statement that has to lock it: `none` when there is
none to see or another transaction holds it. -/
def lockable (w : FairnessWorld τ) (discordId : Int) : Option UserSeed :=
  match (w.userSeeds discordId).holder with
  | none => w.committed discordId
  | some _ => none

/-- Go on with a user's row. -/
def hold (w : FairnessWorld τ) (tx : τ) (discordId : Int) (work : SeedWork) : FairnessWorld τ :=
  { w with
    userSeeds := Function.update w.userSeeds discordId ((w.userSeeds discordId).hold tx work) }

/-- Commit a row and what comes with it. -/
def publish (w : FairnessWorld τ) (discordId : Int) (row : UserSeed) (outcome : SeedOutcome) :
    FairnessWorld τ where
  userSeeds := Function.update w.userSeeds discordId (.free (some row))
  history := w.history ++ outcome.history.toList
  log := w.log ++ [outcome]

variable [DecidableEq τ]

/-- One statement. A statement that has to wait, that fails, or that is not the
next one of its transaction, is no step; a failed insert of a first row (its user
is unknown, or another has inserted it) held nothing. -/
def step (crypto : Crypto) (w : FairnessWorld τ) : FairnessStatement τ → FairnessWorld τ
  | .requestOutcomeBytes tx discordId byteCount =>
      match w.lockable discordId with
      | some row =>
          if byteCount ≤ 0 then w else w.hold tx discordId (.locked row byteCount)
      | none => w
  | .nextNonce tx discordId =>
      match (w.userSeeds discordId).heldBy tx with
      | some (.locked row byteCount) =>
          let row := { row with nonce := row.nonce + 1 }
          w.hold tx discordId (.counted row byteCount (row.nonce - 1))
      | _ => w
  | .readSeeds tx discordId =>
      match (w.userSeeds discordId).heldBy tx with
      | some (.counted row byteCount usedNonce) =>
          w.hold tx discordId (.drawn row
            ⟨byteCount, row.serverSeed, row.serverSeedHash, row.clientSeed, usedNonce⟩)
      | _ => w
  | .setClientSeed tx discordId newClientSeed =>
      match w.lockable discordId with
      | some row =>
          if MatchesClientSeedRegex newClientSeed then
            w.hold tx discordId (.clientSeedSet { row with clientSeed := newClientSeed })
          else w
      | none => w
  | .rotateUserSeed tx discordId pRotatedBy =>
      match RotatedBy.ofText pRotatedBy, w.lockable discordId with
      | some rotatedBy, some row => w.hold tx discordId (.selected row rotatedBy)
      | _, _ => w
  | .insertHistory tx discordId vNewSeed =>
      match (w.userSeeds discordId).heldBy tx with
      | some (.selected vExisting rotatedBy) =>
          w.hold tx discordId
            (.archived vExisting (vExisting.archive discordId rotatedBy) vNewSeed)
      | _ => w
  | .updateUserSeeds tx discordId =>
      match (w.userSeeds discordId).heldBy tx with
      | some (.archived row history vNewSeed) =>
          let row := { row with
            serverSeed := vNewSeed
            serverSeedHash := crypto.sha256 vNewSeed
            nonce := 0 }
          w.hold tx discordId (.rotated row history)
      | _ => w
  | .insertUserSeeds tx discordId vNewSeed clientBytes =>
      match (w.userSeeds discordId).holder, w.committed discordId with
      | none, none =>
          if clientBytes.length = 8 then
            w.hold tx discordId
              (.created ⟨vNewSeed, crypto.sha256 vNewSeed, encodeHex clientBytes, 0⟩)
          else w
      | _, _ => w
  | .commit tx discordId =>
      match ((w.userSeeds discordId).heldBy tx).bind (SeedWork.finished discordId) with
      | some (row, outcome) => w.publish discordId row outcome
      | none => w
  | .rollback tx discordId =>
      { w with
        userSeeds :=
          Function.update w.userSeeds discordId ((w.userSeeds discordId).release tx) }

end FairnessWorld

/-! ## What one transaction does

The purpose of the four transactions, each as one step on the row of its user.
-/

/-- A transaction that did `outcome` took a user's row from `before` to `after`. -/
inductive Takes (crypto : Crypto) (discordId : Int) :
    Option UserSeed → SeedOutcome → UserSeed → Prop
  | drew (row : UserSeed) {byteCount : Int} (hcount : 0 < byteCount) :
      Takes crypto discordId (some row)
        (.drew discordId
          ⟨byteCount, row.serverSeed, row.serverSeedHash, row.clientSeed, row.nonce⟩)
        { row with nonce := row.nonce + 1 }
  | clientSeedSet (row : UserSeed) {newClientSeed : String}
      (hmatches : MatchesClientSeedRegex newClientSeed) :
      Takes crypto discordId (some row) (.clientSeedSet discordId newClientSeed)
        { row with clientSeed := newClientSeed }
  | rotated (row : UserSeed) (rotatedBy : RotatedBy) (newSeed : Bytes) :
      Takes crypto discordId (some row) (.rotated (row.archive discordId rotatedBy) newSeed)
        { row with serverSeed := newSeed, serverSeedHash := crypto.sha256 newSeed, nonce := 0 }
  | created {clientSeed : String} (hmatches : MatchesClientSeedRegex clientSeed)
      (newSeed : Bytes) :
      Takes crypto discordId none (.created discordId newSeed)
        ⟨newSeed, crypto.sha256 newSeed, clientSeed, 0⟩

/-- The outcomes, one after the other, lead from no rows to these. -/
inductive Explains (crypto : Crypto) : List SeedOutcome → (Int → Option UserSeed) → Prop
  | nil : Explains crypto [] fun _ => none
  | concat {log : List SeedOutcome} {seeds : Int → Option UserSeed} {discordId : Int}
      {outcome : SeedOutcome} {row : UserSeed} (hlog : Explains crypto log seeds)
      (htakes : Takes crypto discordId (seeds discordId) outcome row) :
      Explains crypto (log ++ [outcome]) (Function.update seeds discordId (some row))

/-! ## Interleaving is invisible -/

/-- How the work of a transaction relates to the committed row: unfinished work
is on its way from it, finished work takes the row along in one step. -/
def SeedWork.Sound (crypto : Crypto) (discordId : Int) (committed : Option UserSeed) :
    SeedWork → Prop
  | .locked row byteCount => committed = some row ∧ 0 < byteCount
  | .counted row byteCount usedNonce =>
      ∃ old, committed = some old ∧ 0 < byteCount ∧ usedNonce = old.nonce ∧
        row = { old with nonce := old.nonce + 1 }
  | .selected vExisting _ => committed = some vExisting
  | .archived row history _ =>
      committed = some row ∧ ∃ rotatedBy, history = row.archive discordId rotatedBy
  | .drawn row draw => Takes crypto discordId committed (.drew discordId draw) row
  | .clientSeedSet row =>
      Takes crypto discordId committed (.clientSeedSet discordId row.clientSeed) row
  | .rotated row history =>
      Takes crypto discordId committed (.rotated history row.serverSeed) row
  | .created row => Takes crypto discordId committed (.created discordId row.serverSeed) row

theorem SeedWork.Sound.takes {crypto : Crypto} {discordId : Int} {committed : Option UserSeed}
    {work : SeedWork} (h : work.Sound crypto discordId committed) {row : UserSeed}
    {outcome : SeedOutcome} (hfinished : work.finished discordId = some (row, outcome)) :
    Takes crypto discordId committed outcome row := by
  cases work <;> cases hfinished <;> exact h

namespace FairnessWorld

variable {τ : Type} {crypto : Crypto}

/-- The committed tables are what the committed transactions did, one after the
other, and every transaction in flight is on its way from them. -/
structure Sound (crypto : Crypto) (w : FairnessWorld τ) : Prop where
  explained : Explains crypto w.log w.committed
  history : w.history = w.log.filterMap SeedOutcome.history
  working : ∀ discordId,
    (w.userSeeds discordId).Keeps (fun _ => True) (SeedWork.Sound crypto discordId)

variable {w : FairnessWorld τ} {discordId : Int} {tx : τ}

theorem lockable_eq_some {row : UserSeed} (h : w.lockable discordId = some row) :
    (w.userSeeds discordId).holder = none ∧ w.committed discordId = some row := by
  unfold lockable at h
  split at h
  next hholder => exact ⟨hholder, h⟩
  next => cases h

theorem Sound.setUserSeeds (h : w.Sound crypto) {cell : RowLock τ (Option UserSeed) SeedWork}
    (hcommitted : cell.committed = w.committed discordId)
    (hcell : cell.Keeps (fun _ => True) (SeedWork.Sound crypto discordId)) :
    Sound crypto { w with userSeeds := Function.update w.userSeeds discordId cell } := by
  have hsame : (FairnessWorld.committed
      { w with userSeeds := Function.update w.userSeeds discordId cell }) = w.committed := by
    funext other
    unfold FairnessWorld.committed
    by_cases hother : other = discordId
    · subst hother
      simpa [FairnessWorld.committed] using hcommitted
    · simp [hother]
  refine ⟨?_, h.history, fun other => ?_⟩
  · rw [hsame]
    exact h.explained
  · by_cases hother : other = discordId
    · subst hother
      simpa using hcell
    · simpa [hother] using h.working other

theorem Sound.hold (h : w.Sound crypto) {work : SeedWork}
    (hwork : work.Sound crypto discordId (w.committed discordId)) :
    (w.hold tx discordId work).Sound crypto :=
  h.setUserSeeds rfl ((h.working discordId).hold hwork)

theorem Sound.publish (h : w.Sound crypto) {row : UserSeed} {outcome : SeedOutcome}
    (htakes : Takes crypto discordId (w.committed discordId) outcome row) :
    (w.publish discordId row outcome).Sound crypto := by
  have hcommitted : (w.publish discordId row outcome).committed =
      Function.update w.committed discordId (some row) := by
    funext other
    unfold FairnessWorld.committed FairnessWorld.publish
    by_cases hother : other = discordId
    · subst hother
      simp
    · simp [hother]
  constructor
  · rw [hcommitted]
    exact h.explained.concat htakes
  · change w.history ++ _ = (w.log ++ [outcome]).filterMap SeedOutcome.history
    rw [h.history, List.filterMap_append]
    cases outcome <;> rfl
  · intro other
    by_cases hother : other = discordId
    · subst hother
      simpa [FairnessWorld.publish] using RowLock.Keeps.free trivial
    · simpa [FairnessWorld.publish, hother] using h.working other

variable [DecidableEq τ]

theorem Sound.heldBy (h : w.Sound crypto) {work : SeedWork}
    (hheld : (w.userSeeds discordId).heldBy tx = some work) :
    work.Sound crypto discordId (w.committed discordId) :=
  (h.working discordId).heldBy hheld

theorem sound_step (h : w.Sound crypto) (statement : FairnessStatement τ) :
    (w.step crypto statement).Sound crypto := by
  cases statement with
  | requestOutcomeBytes tx discordId byteCount =>
      simp only [FairnessWorld.step]
      split
      next row hrow =>
        split
        next => exact h
        next hcount => exact h.hold ⟨(lockable_eq_some hrow).2, not_le.mp hcount⟩
      next => exact h
  | nextNonce tx discordId =>
      simp only [FairnessWorld.step]
      split
      next row byteCount hheld =>
        have hlocked : w.committed discordId = some row ∧ 0 < byteCount := h.heldBy hheld
        apply h.hold
        exact ⟨row, hlocked.1, hlocked.2, by omega, rfl⟩
      next => exact h
  | readSeeds tx discordId =>
      simp only [FairnessWorld.step]
      split
      next row byteCount usedNonce hheld =>
        have hcounted : ∃ old, w.committed discordId = some old ∧ 0 < byteCount ∧
            usedNonce = old.nonce ∧ row = { old with nonce := old.nonce + 1 } := h.heldBy hheld
        obtain ⟨old, hold, hcount, rfl, rfl⟩ := hcounted
        apply h.hold
        change Takes crypto discordId (w.committed discordId) _ _
        rw [hold]
        exact .drew old hcount
      next => exact h
  | setClientSeed tx discordId newClientSeed =>
      simp only [FairnessWorld.step]
      split
      next row hrow =>
        split
        next hmatches =>
          apply h.hold
          change Takes crypto discordId (w.committed discordId) _ _
          rw [(lockable_eq_some hrow).2]
          exact .clientSeedSet row hmatches
        next => exact h
      next => exact h
  | rotateUserSeed tx discordId pRotatedBy =>
      simp only [FairnessWorld.step]
      split
      next rotatedBy row hby hrow => exact h.hold (lockable_eq_some hrow).2
      next => exact h
  | insertHistory tx discordId vNewSeed =>
      simp only [FairnessWorld.step]
      split
      next vExisting rotatedBy hheld =>
        have hselected : w.committed discordId = some vExisting := h.heldBy hheld
        exact h.hold ⟨hselected, rotatedBy, rfl⟩
      next => exact h
  | updateUserSeeds tx discordId =>
      simp only [FairnessWorld.step]
      split
      next row history vNewSeed hheld =>
        have harchived : w.committed discordId = some row ∧
            ∃ rotatedBy, history = row.archive discordId rotatedBy := h.heldBy hheld
        obtain ⟨hrow, rotatedBy, rfl⟩ := harchived
        apply h.hold
        change Takes crypto discordId (w.committed discordId) _ _
        rw [hrow]
        exact .rotated row rotatedBy vNewSeed
      next => exact h
  | insertUserSeeds tx discordId vNewSeed clientBytes =>
      simp only [FairnessWorld.step]
      split
      next hholder hnone =>
        split
        next hlength =>
          apply h.hold
          change Takes crypto discordId (w.committed discordId) _ _
          rw [hnone]
          exact .created (encodeHex_matches hlength) vNewSeed
        next => exact h
      next => exact h
  | commit tx discordId =>
      simp only [FairnessWorld.step]
      split
      next row outcome hfinished =>
        obtain ⟨work, hheld, hwork⟩ := Option.bind_eq_some_iff.mp hfinished
        exact h.publish ((h.heldBy hheld).takes hwork)
      next => exact h
  | rollback tx discordId =>
      exact h.setUserSeeds (by unfold RowLock.release; split <;> rfl)
        ((h.working discordId).release tx)

/-- Whatever the interleaving, the tables are as after the committed
transactions one by one. -/
theorem sound_run (statements : List (FairnessStatement τ)) :
    (run (FairnessWorld.step crypto) .empty statements).Sound crypto := by
  have hempty : (FairnessWorld.empty : FairnessWorld τ).Sound crypto :=
    ⟨.nil, rfl, fun _ => RowLock.Keeps.free trivial⟩
  have hstep : ∀ (w : FairnessWorld τ) (statement : FairnessStatement τ), True →
      w.Sound crypto → (w.step crypto statement).Sound crypto :=
    fun w statement _ h => sound_step h statement
  exact run_invariant hstep hempty fun _ _ => trivial

end FairnessWorld

end DeathRoll
