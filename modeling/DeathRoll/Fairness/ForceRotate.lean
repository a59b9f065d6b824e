import DeathRoll.Core.Seeds
import DeathRoll.Fairness.EnsureSeeds
import DeathRoll.Ledger.Runs
import DeathRoll.Relational.Autocommit

/-! # Rotating seeds by force

`ops/scripts/force_rotate.py`: for one user or for all, `fairness.rotate_user_seed`, a read of
the balance and `core.audit_log_insert_with_chain`, sent as statements of their own. Whether
the three act as one depends on where the sequence breaks off.
-/

namespace DeathRoll

open Relational Tx

/-! ## The script -/

/-- The ledger with the two tables of the seeds. -/
structure FairnessDatabase where
  ledger : Database
  userSeeds : Table Int UserSeed
  history : List FairnessHistory

inductive RotationError where
  | database (error : DbError)
  | invalidRotatedBy (rotatedBy : String)
  /-- `asyncpg.DataError`: an argument that is no 64-bit integer, found before it is sent. -/
  | dataError
  | connectionLost
deriving DecidableEq

abbrev FairnessTx (α : Type) := Tx FairnessDatabase RotationError α

/-- A statement of the ledger. -/
def onLedger {α : Type} (x : LedgerTx α) : FairnessTx α :=
  ExceptT.mk fun s =>
    match x.outcome s.ledger with
    | (.ok a, ledger) => (.ok a, { s with ledger })
    | (.error e, ledger) => (.error (.database e), { s with ledger })

def FairnessDatabase.rollback (before atError : FairnessDatabase) : FairnessDatabase :=
  { before with ledger := before.ledger.rollback atError.ledger }

/-- `fairness.rotate_user_seed`, with the bytes it generates: the revealed seed and the hash
of the new one. Both tables it writes reference `core.users`. -/
def rotateUserSeed (crypto : Crypto) (vNewSeed : RandomBytes 32) (clientBytes : RandomBytes 8)
    (pDiscordId : Int) (pRotatedBy : String) : FairnessTx (Option Bytes × Bytes) := do
  let rotatedBy ← require (.invalidRotatedBy pRotatedBy) (RotatedBy.ofText pRotatedBy)
  let s ← get
  let vNewHash := crypto.sha256 vNewSeed.1
  match s.userSeeds.get? pDiscordId with
  | none =>
      let vNewClient := encodeHex clientBytes.1
      raiseIf (s.ledger.users.get? pDiscordId = none)
        (.database (.foreignKeyViolation "user_seeds_discord_id_fkey"))
      set { s with
        userSeeds := s.userSeeds.insertNew pDiscordId ⟨vNewSeed.1, vNewHash, vNewClient, 0⟩ }
      return (none, vNewHash)
  | some vExisting =>
      raiseIf (s.ledger.users.get? pDiscordId = none)
        (.database (.foreignKeyViolation "history_discord_id_fkey"))
      set { s with
        history := s.history ++ [vExisting.archive pDiscordId rotatedBy]
        userSeeds := s.userSeeds.set pDiscordId
          { vExisting with serverSeed := vNewSeed.1, serverSeedHash := vNewHash, nonce := 0 } }
      return (some vExisting.serverSeed, vNewHash)

/-- `SELECT balance FROM core.balances WHERE discord_id = $1`. -/
def selectBalance (discordId : Int) : FairnessTx (Option Int) := do
  return ((← get).ledger.balances.get? discordId).map fun row => row.balance

/-- What one rotation meets: the session of its audit statement, the bytes that the database
generates, and the fate of its three statements. -/
structure Rotation where
  env : Env
  vNewSeed : RandomBytes 32
  clientBytes : RandomBytes 8
  rotate : Delivery := .answered
  balance : Delivery := .answered
  audit : Delivery := .answered

/-- A statement with its integer arguments. -/
def statement {α : Type} (arguments : List Int) (delivery : Delivery) (x : FairnessTx α) :
    FairnessTx α := do
  raiseIf (¬ ∀ argument ∈ arguments, InBigint argument) .dataError
  autocommit FairnessDatabase.rollback .connectionLost delivery x

/-- The arguments of the audit statement. -/
def rotationAudit (targetId adminActorId bal : Int) (reason : String) (newHash : Bytes) :
    AuditParams where
  actorType := .admin
  actorId := some adminActorId
  targetId := some targetId
  action := some "fairness_rotated"
  amount := some 0
  balanceBefore := some bal
  balanceAfter := some bal
  reason := some reason
  refType := some "fairness_rotation"
  refId := some (toString targetId)
  botName := "ops"
  metadata := .obj [("new_server_seed_hash", .text (encodeHex newHash))]

/-- `_rotate_one`. -/
def rotateOne (crypto : Crypto) (r : Rotation) (adminActorId : Int) (reason : String)
    (targetId : Int) : FairnessTx String := do
  let row ← statement [targetId] r.rotate
    (rotateUserSeed crypto r.vNewSeed r.clientBytes targetId "admin")
  let newHash := row.2
  let bal ← statement [targetId] r.balance (selectBalance targetId)
  let bal := bal.getD 0
  let _ ← statement [adminActorId, targetId, bal] r.audit
    (onLedger (auditLogInsertWithChain r.env
      (rotationAudit targetId adminActorId bal reason newHash)))
  return encodeHex newHash

/-- `_all_user_ids`. -/
def allUserIds (s : FairnessDatabase) : List Int := s.userSeeds.keys.insertionSort (· ≤ ·)

/-- `_main_async` with its connection: `targetUser` is `none` for `--all`. A user is rotated
once, so what a rotation meets is given by user. -/
def mainAsync (crypto : Crypto) (rotations : Int → Rotation) (adminActorId : Int)
    (targetUser : Option Int) (listing : Delivery) (reason : String) : FairnessTx Unit := do
  match targetUser with
  | some targetId =>
      let _ ← rotateOne crypto (rotations targetId) adminActorId reason targetId
  | none =>
      let ids ← statement [] listing (return allUserIds (← get))
      each (fun uid => rotateOne crypto (rotations uid) adminActorId reason uid) ids

/-! ## What a rotation is for -/

/-- A rotation by an admin, as what a transaction does to the row of the user. -/
def rotation (existing : Option UserSeed) (targetId : Int) (newSeed : Bytes) : SeedOutcome :=
  match existing with
  | none => .created targetId newSeed
  | some row => .rotated (row.archive targetId .admin) newSeed

/-- The seed is rotated and the old one, if there was one, archived. -/
structure RotatesSeed (crypto : Crypto) (newSeed : Bytes) (before : FairnessDatabase)
    (targetId : Int) (after : FairnessDatabase) : Prop where
  seed : ∃ row, after.userSeeds.get? targetId = some row ∧
    Takes crypto targetId (before.userSeeds.get? targetId)
      (rotation (before.userSeeds.get? targetId) targetId newSeed) row
  others : ∀ other, other ≠ targetId → after.userSeeds.get? other = before.userSeeds.get? other
  history : after.history = before.history ++
    (rotation (before.userSeeds.get? targetId) targetId newSeed).history.toList

/-- The rotation is audited as well, with the hash of the new seed. -/
structure Rotated (crypto : Crypto) (newSeed : Bytes) (before : FairnessDatabase)
    (targetId : Int) (after : FairnessDatabase) : Prop
    extends RotatesSeed crypto newSeed before targetId after where
  audited : ∃ entry : AuditRow,
    after.ledger.audit.auditLog = before.ledger.audit.auditLog ++ [entry] ∧
      entry.content.action = "fairness_rotated" ∧ entry.content.targetId = targetId ∧
      entry.content.metadata =
        .obj [("new_server_seed_hash", .text (encodeHex (crypto.sha256 newSeed)))]

/-- The three tables are unchanged. -/
structure Untouched (before after : FairnessDatabase) : Prop where
  userSeeds : after.userSeeds = before.userSeeds
  history : after.history = before.history
  auditLog : after.ledger.audit.auditLog = before.ledger.audit.auditLog

/-- Rotated one after the other, and nothing besides. -/
inductive RotatedEach (crypto : Crypto) (newSeed : Int → Bytes) :
    FairnessDatabase → List Int → FairnessDatabase → Prop
  | nil {before after : FairnessDatabase} (huntouched : Untouched before after) :
      RotatedEach crypto newSeed before [] after
  | cons {before mid after : FairnessDatabase} {targetId : Int} {rest : List Int}
      (hrotated : Rotated crypto (newSeed targetId) before targetId mid)
      (hrest : RotatedEach crypto newSeed mid rest after) :
      RotatedEach crypto newSeed before (targetId :: rest) after

/-! ## When it breaks off -/

namespace Rotation

/-- The first statement commits. -/
def Rotates (r : Rotation) (s : FairnessDatabase) (targetId : Int) : Prop :=
  InBigint targetId ∧ s.ledger.users.get? targetId ≠ none ∧ r.rotate ≠ .undone

/-- Once the first statement has committed, the last one does. -/
def Audits (r : Rotation) (adminActorId : Int) : Prop :=
  r.rotate = .answered ∧ r.balance = .answered ∧ r.audit ≠ .undone ∧ InBigint adminActorId ∧
    ∃ key, r.env.chainKey = .ok key

/-- The seed is rotated, and the row of the audit log stays out. -/
def HalfWay (r : Rotation) (s : FairnessDatabase) (adminActorId targetId : Int) : Prop :=
  r.Rotates s targetId ∧ ¬ r.Audits adminActorId

/-- All three statements commit and are answered. -/
def Completes (r : Rotation) (s : FairnessDatabase) (adminActorId targetId : Int) : Prop :=
  r.Rotates s targetId ∧ r.Audits adminActorId ∧ r.audit = .answered

end Rotation

/-- The users of a run. -/
def rotationTargets (s : FairnessDatabase) (targetUser : Option Int) (listing : Delivery) :
    List Int :=
  match targetUser with
  | some targetId => [targetId]
  | none => if listing = .answered then allUserIds s else []

/-- What the statements of a rotation read and write. -/
def FairnessDatabase.tables (s : FairnessDatabase) :
    Table Int UserSeed × List FairnessHistory × List AuditRow × Table Int User :=
  (s.userSeeds, s.history, s.ledger.audit.auditLog, s.ledger.users)

/-! ## The statements -/

variable {crypto : Crypto} {s : FairnessDatabase} {targetId adminActorId : Int}

section Statement

variable {α : Type} {arguments : List Int} {delivery : Delivery} {x : FairnessTx α}
  {post : α → FairnessDatabase → Prop} {raised : RotationError → Prop}

theorem statement_outcome (harguments : ∀ argument ∈ arguments, InBigint argument) :
    (statement arguments delivery x).outcome s =
      (autocommit FairnessDatabase.rollback .connectionLost delivery x).outcome s := by
  unfold statement raiseIf
  rw [if_neg (not_not.mpr harguments), outcome_bind_of_ok (outcome_pure () s)]

theorem statement_dataError (harguments : ¬ ∀ argument ∈ arguments, InBigint argument) :
    (statement arguments delivery x).outcome s = (.error .dataError, s) := by
  unfold statement raiseIf
  rw [if_pos harguments]
  exact outcome_bind_of_error rfl

theorem statement_answered (harguments : ∀ argument ∈ arguments, InBigint argument)
    (hwp : x.wp post (fun _ => False) s) :
    ∃ a s', (statement arguments .answered x).outcome s = (.ok a, s') ∧ post a s' := by
  rw [statement_outcome harguments]
  exact autocommit_answered hwp

theorem statement_unanswered (harguments : ∀ argument ∈ arguments, InBigint argument)
    (hwp : x.wp post (fun _ => False) s) :
    ∃ a s', (statement arguments .unanswered x).outcome s = (.error .connectionLost, s') ∧
      post a s' := by
  rw [statement_outcome harguments]
  exact autocommit_unanswered hwp

theorem statement_undone :
    ∃ e, (statement arguments .undone x).outcome s = (.error e, s) := by
  by_cases harguments : ∀ argument ∈ arguments, InBigint argument
  · exact ⟨_, (statement_outcome harguments).trans autocommit_undone⟩
  · exact ⟨_, statement_dataError harguments⟩

/-- A statement that can only raise changes none of the tables. -/
theorem statement_raises (hwp : x.wp (fun _ _ => False) raised s) :
    ∃ e s', (statement arguments delivery x).outcome s = (.error e, s') ∧ s'.tables = s.tables := by
  by_cases harguments : ∀ argument ∈ arguments, InBigint argument
  · rw [statement_outcome harguments]
    exact autocommit_raises (fun _ => rfl) hwp
  · exact ⟨_, s, statement_dataError harguments, rfl⟩

end Statement

theorem rotateUserSeed_unknown {r : Rotation} (hunknown : s.ledger.users.get? targetId = none) :
    (rotateUserSeed crypto r.vNewSeed r.clientBytes targetId "admin").wp (fun _ _ => False)
      (fun _ => True) s := by
  simp only [rotateUserSeed, wp_bind, wp_require, wp_get, implies_true, true_and]
  intro rotatedBy _
  split
  next => simp only [wp_bind, wp_raiseIf, hunknown, implies_true, not_true, false_implies, and_self]
  next => simp only [wp_bind, wp_raiseIf, hunknown, implies_true, not_true, false_implies, and_self]

theorem rotateUserSeed_rotates {r : Rotation} (hknown : s.ledger.users.get? targetId ≠ none) :
    (rotateUserSeed crypto r.vNewSeed r.clientBytes targetId "admin").wp
      (fun row s' => row.2 = crypto.sha256 r.vNewSeed.1 ∧
        RotatesSeed crypto r.vNewSeed.1 s targetId s' ∧ s'.ledger = s.ledger)
      (fun _ => False) s := by
  have hadmin : RotatedBy.ofText "admin" = some .admin := rfl
  simp only [rotateUserSeed, wp_bind, wp_require, wp_get, hadmin, reduceCtorEq, false_implies,
    true_and, Option.some.injEq, forall_eq']
  cases hexisting : s.userSeeds.get? targetId with
  | none =>
      simp only [wp_bind, wp_raiseIf, wp_set, wp_pure, hknown, false_implies, not_false_iff,
        true_implies, true_and, and_true]
      refine ⟨⟨_, Table.get?_insertNew_self .., ?_⟩, fun other hne => ?_, ?_⟩
      · rw [hexisting]
        exact .created (encodeHex_matches r.clientBytes.2) r.vNewSeed.1
      · exact Table.get?_insertNew_of_ne _ hne _
      · rw [hexisting]
        exact (List.append_nil _).symm
  | some vExisting =>
      simp only [wp_bind, wp_raiseIf, wp_set, wp_pure, hknown, false_implies, not_false_iff,
        true_implies, true_and, and_true]
      refine ⟨⟨_, Table.get?_set_self hexisting _, ?_⟩, fun other hne => ?_, ?_⟩
      · rw [hexisting]
        exact .rotated vExisting .admin r.vNewSeed.1
      · exact Table.get?_set_of_ne _ hne _
      · rw [hexisting]
        rfl

theorem wp_onLedger {α : Type} {x : LedgerTx α} {post : α → FairnessDatabase → Prop}
    {raised : RotationError → Prop} :
    wp (onLedger x) post raised s ↔
      wp x (fun a ledger => post a { s with ledger }) (fun e => raised (.database e)) s.ledger := by
  unfold wp
  have hrun : (onLedger x).outcome s = match x.outcome s.ledger with
      | (.ok a, ledger) => (.ok a, { s with ledger })
      | (.error e, ledger) => (.error (.database e), { s with ledger }) := rfl
  rw [hrun]
  rcases x.outcome s.ledger with ⟨result, ledger⟩
  cases result <;> rfl

/-- What the audit statement leaves alone: everything but the log, and the log up to its row. -/
structure Audited (before : FairnessDatabase) (newHash : Bytes) (targetId : Int)
    (after : FairnessDatabase) : Prop where
  userSeeds : after.userSeeds = before.userSeeds
  history : after.history = before.history
  users : after.ledger.users = before.ledger.users
  auditLog : ∃ entry : AuditRow,
    after.ledger.audit.auditLog = before.ledger.audit.auditLog ++ [entry] ∧
      entry.content.action = "fairness_rotated" ∧ entry.content.targetId = targetId ∧
      entry.content.metadata = .obj [("new_server_seed_hash", .text (encodeHex newHash))]

variable {env : Env} {bal : Int} {reason : String} {newHash : Bytes}

theorem audit_appends {key : Bytes} (hkey : env.chainKey = .ok key)
    (hknown : s.ledger.users.get? targetId ≠ none) :
    (onLedger (auditLogInsertWithChain env
      (rotationAudit targetId adminActorId bal reason newHash))).wp
      (fun _ s' => Audited s newHash targetId s') (fun _ => False) s := by
  rw [wp_onLedger, wp_auditLogInsertWithChain]
  simp only [rotationAudit, hkey, reduceCtorEq, false_implies, implies_true, Except.ok.injEq,
    Option.some.injEq, forall_eq', true_and, hknown, not_false_iff, true_implies]
  exact ⟨rfl, rfl, rfl, _, rfl, rfl, rfl, rfl⟩

theorem audit_raises {e : DbError} (hkey : env.chainKey = .error e) :
    (onLedger (auditLogInsertWithChain env
      (rotationAudit targetId adminActorId bal reason newHash))).wp
      (fun _ _ => False) (fun _ => True) s := by
  rw [wp_onLedger, wp_auditLogInsertWithChain]
  simp only [hkey, implies_true, reduceCtorEq, false_implies, and_self]

/-! ## One rotation -/

variable {r : Rotation}

/-- The balance of a user is one of the 64-bit integers that the audit statement takes. -/
theorem inBigint_balance (s : FairnessDatabase) (targetId : Int) :
    InBigint (((s.ledger.balances.get? targetId).map fun row => row.balance).getD 0) := by
  cases s.ledger.balances.get? targetId with
  | none => decide
  | some row => exact row.inRange.1

/-- A rotation whose first statement does not commit changes nothing. -/
theorem rotateOne_rejected (crypto : Crypto) (adminActorId : Int) (reason : String)
    (hrejected : ¬ r.Rotates s targetId) :
    ∃ e s', (rotateOne crypto r adminActorId reason targetId).outcome s = (.error e, s') ∧
      s'.tables = s.tables := by
  have hfirst : ∃ e s', (statement [targetId] r.rotate
      (rotateUserSeed crypto r.vNewSeed r.clientBytes targetId "admin")).outcome s =
        (.error e, s') ∧ s'.tables = s.tables := by
    by_cases hknown : s.ledger.users.get? targetId = none
    · exact statement_raises (rotateUserSeed_unknown hknown)
    by_cases htarget : InBigint targetId
    · have hundone : r.rotate = .undone := by
        by_contra hdelivery
        exact hrejected ⟨htarget, hknown, hdelivery⟩
      rw [hundone]
      obtain ⟨e, hrun⟩ := statement_undone
      exact ⟨e, s, hrun, rfl⟩
    · exact ⟨_, s, statement_dataError (by simpa using htarget), rfl⟩
  obtain ⟨e, s', hrun, hsame⟩ := hfirst
  exact ⟨e, s', outcome_bind_of_error hrun, hsame⟩

/-- The read of the balance: either it answers, or the rotation ends there. -/
theorem selectBalance_outcome (r : Rotation) (s : FairnessDatabase) (htarget : InBigint targetId) :
    (∃ bal, (statement [targetId] r.balance (selectBalance targetId)).outcome s = (.ok bal, s) ∧
        InBigint (bal.getD 0) ∧ r.balance = .answered) ∨
      ∃ e, (statement [targetId] r.balance (selectBalance targetId)).outcome s = (.error e, s) ∧
        r.balance ≠ .answered := by
  have hwp : (selectBalance targetId).wp (fun bal s' => InBigint (bal.getD 0) ∧ s' = s)
      (fun _ => False) s := ⟨inBigint_balance s targetId, rfl⟩
  have harguments : ∀ argument ∈ [targetId], InBigint argument := by simpa using htarget
  cases r.balance with
  | answered =>
      obtain ⟨bal, s', hrun, hbal, rfl⟩ := statement_answered harguments hwp
      exact .inl ⟨bal, hrun, hbal, rfl⟩
  | undone =>
      obtain ⟨e, hrun⟩ := statement_undone
      exact .inr ⟨e, hrun, Delivery.noConfusion⟩
  | unanswered =>
      obtain ⟨_, s', hrun, -, rfl⟩ := statement_unanswered harguments hwp
      exact .inr ⟨_, hrun, Delivery.noConfusion⟩

/-- What the first statement leaves, seed and archive without the row of the audit log. -/
structure HalfRotated (crypto : Crypto) (newSeed : Bytes) (before : FairnessDatabase)
    (targetId : Int) (after : FairnessDatabase) : Prop
    extends RotatesSeed crypto newSeed before targetId after where
  users : after.ledger.users = before.ledger.users
  auditLog : after.ledger.audit.auditLog = before.ledger.audit.auditLog

theorem HalfRotated.of_tables {newSeed : Bytes} {s₁ s₂ : FairnessDatabase}
    (hhalf : HalfRotated crypto newSeed s targetId s₁) (hsame : s₂.tables = s₁.tables) :
    HalfRotated crypto newSeed s targetId s₂ := by
  simp only [FairnessDatabase.tables, Prod.mk.injEq] at hsame
  obtain ⟨hseeds, hhistory, hlog, husers⟩ := hsame
  exact
    { seed := hseeds ▸ hhalf.seed
      others := hseeds ▸ hhalf.others
      history := hhistory.trans hhalf.history
      users := husers.trans hhalf.users
      auditLog := hlog.trans hhalf.auditLog }

theorem HalfRotated.rotated {newSeed : Bytes} {s₁ s₂ : FairnessDatabase}
    (hhalf : HalfRotated crypto newSeed s targetId s₁)
    (haudited : Audited s₁ (crypto.sha256 newSeed) targetId s₂) :
    Rotated crypto newSeed s targetId s₂ := by
  obtain ⟨entry, hlog, haction, htarget, hmetadata⟩ := haudited.auditLog
  exact
    { seed := haudited.userSeeds ▸ hhalf.seed
      others := haudited.userSeeds ▸ hhalf.others
      history := haudited.history.trans hhalf.history
      audited := ⟨entry, hhalf.auditLog ▸ hlog, haction, htarget, hmetadata⟩ }

/-- The audit statement appends its row when it can, and is answered when it is. -/
theorem audit_outcome (hknown : s.ledger.users.get? targetId ≠ none)
    (harguments : ∀ argument ∈ [adminActorId, targetId, bal], InBigint argument)
    (hdelivery : r.audit ≠ .undone) {key : Bytes} (hkey : r.env.chainKey = .ok key) :
    ∃ result s', (statement [adminActorId, targetId, bal] r.audit
        (onLedger (auditLogInsertWithChain r.env
          (rotationAudit targetId adminActorId bal reason newHash)))).outcome s = (result, s') ∧
      Audited s newHash targetId s' ∧
      ((∃ id, result = .ok id) ∧ r.audit = .answered ∨
        (∃ e, result = .error e) ∧ r.audit ≠ .answered) := by
  cases haudit : r.audit with
  | answered =>
      obtain ⟨id, s', hrun, haudited⟩ := statement_answered harguments (audit_appends hkey hknown)
      exact ⟨_, s', hrun, haudited, .inl ⟨⟨id, rfl⟩, rfl⟩⟩
  | undone => exact absurd haudit hdelivery
  | unanswered =>
      obtain ⟨_, s', hrun, haudited⟩ := statement_unanswered harguments (audit_appends hkey hknown)
      exact ⟨_, s', hrun, haudited, .inr ⟨⟨_, rfl⟩, Delivery.noConfusion⟩⟩

/-- Otherwise it raises and appends nothing. -/
theorem audit_fails (hrejected : ¬ (r.audit ≠ .undone ∧ InBigint adminActorId ∧
      ∃ key, r.env.chainKey = .ok key)) :
    ∃ e s', (statement [adminActorId, targetId, bal] r.audit
        (onLedger (auditLogInsertWithChain r.env
          (rotationAudit targetId adminActorId bal reason newHash)))).outcome s = (.error e, s') ∧
      s'.tables = s.tables := by
  by_cases hadmin : InBigint adminActorId
  · cases hkey : r.env.chainKey with
    | error e => exact statement_raises (audit_raises hkey)
    | ok key =>
        have hundone : r.audit = .undone := by
          by_contra hdelivery
          exact hrejected ⟨hdelivery, hadmin, key, hkey⟩
        rw [hundone]
        obtain ⟨e, hrun⟩ := statement_undone
        exact ⟨e, s, hrun, rfl⟩
  · exact ⟨_, s, statement_dataError fun hall => hadmin (hall _ List.mem_cons_self), rfl⟩

/-- The first statement, when it commits. -/
theorem rotate_outcome (crypto : Crypto) (hrotates : r.Rotates s targetId) :
    ∃ s₁, HalfRotated crypto r.vNewSeed.1 s targetId s₁ ∧
      ((∃ revealed, (statement [targetId] r.rotate
            (rotateUserSeed crypto r.vNewSeed r.clientBytes targetId "admin")).outcome s =
          (.ok (revealed, crypto.sha256 r.vNewSeed.1), s₁)) ∧ r.rotate = .answered ∨
        (∃ e, (statement [targetId] r.rotate
            (rotateUserSeed crypto r.vNewSeed r.clientBytes targetId "admin")).outcome s =
          (.error e, s₁)) ∧ r.rotate ≠ .answered) := by
  obtain ⟨htarget, hknown, hdelivery⟩ := hrotates
  have harguments : ∀ argument ∈ [targetId], InBigint argument := by simpa using htarget
  cases hrotate : r.rotate with
  | answered =>
      obtain ⟨⟨revealed, _⟩, s₁, hrun, rfl, hseed, hledger⟩ :=
        statement_answered harguments (rotateUserSeed_rotates hknown)
      exact ⟨s₁, ⟨hseed, by rw [hledger], by rw [hledger]⟩, .inl ⟨⟨revealed, hrun⟩, rfl⟩⟩
  | undone => exact absurd hrotate hdelivery
  | unanswered =>
      obtain ⟨_, s₁, hrun, -, hseed, hledger⟩ :=
        statement_unanswered harguments (rotateUserSeed_rotates hknown)
      exact ⟨s₁, ⟨hseed, by rw [hledger], by rw [hledger]⟩,
        .inr ⟨⟨_, hrun⟩, Delivery.noConfusion⟩⟩

/-- A rotation that breaks off half way leaves what the first statement leaves. -/
theorem rotateOne_halfWay (crypto : Crypto) (reason : String)
    (hhalfWay : r.HalfWay s adminActorId targetId) :
    ∃ e s', (rotateOne crypto r adminActorId reason targetId).outcome s = (.error e, s') ∧
      HalfRotated crypto r.vNewSeed.1 s targetId s' := by
  obtain ⟨hrotates, hnot⟩ := hhalfWay
  obtain ⟨s₁, hhalf, ⟨⟨revealed, hrun⟩, hrotate⟩ | ⟨⟨e, hrun⟩, -⟩⟩ :=
    rotate_outcome crypto hrotates
  · rcases selectBalance_outcome r s₁ hrotates.1 with ⟨bal, hbal, -, hbalance⟩ | ⟨e, hbal, -⟩
    · have hrejected : ¬ (r.audit ≠ .undone ∧ InBigint adminActorId ∧
          ∃ key, r.env.chainKey = .ok key) := fun haudit => hnot ⟨hrotate, hbalance, haudit⟩
      obtain ⟨e, s', haudit, hsame⟩ := audit_fails hrejected
      refine ⟨e, s', ?_, hhalf.of_tables hsame⟩
      exact (outcome_bind_of_ok hrun).trans
        ((outcome_bind_of_ok hbal).trans (outcome_bind_of_error haudit))
    · exact ⟨e, s₁, (outcome_bind_of_ok hrun).trans (outcome_bind_of_error hbal), hhalf⟩
  · exact ⟨e, s₁, outcome_bind_of_error hrun, hhalf⟩

/-- Otherwise, once the first statement commits, the rotation is done, and it returns when its
last statement is answered. -/
theorem rotateOne_rotated (crypto : Crypto) (reason : String) (hrotates : r.Rotates s targetId)
    (haudits : r.Audits adminActorId) :
    ∃ result s', (rotateOne crypto r adminActorId reason targetId).outcome s = (result, s') ∧
      Rotated crypto r.vNewSeed.1 s targetId s' ∧ s'.ledger.users = s.ledger.users ∧
      ((∃ hash, result = .ok hash) ∧ r.audit = .answered ∨
        (∃ e, result = .error e) ∧ r.audit ≠ .answered) := by
  obtain ⟨hrotate, hbalance, hdelivery, hadmin, key, hkey⟩ := haudits
  obtain ⟨s₁, hhalf, ⟨⟨revealed, hrun⟩, -⟩ | ⟨-, hlost⟩⟩ := rotate_outcome crypto hrotates
  · rcases selectBalance_outcome r s₁ hrotates.1 with ⟨bal, hbal, hrange, -⟩ | ⟨_, -, hlost⟩
    · have hknown : s₁.ledger.users.get? targetId ≠ none := hhalf.users ▸ hrotates.2.1
      have harguments : ∀ argument ∈ [adminActorId, targetId, bal.getD 0], InBigint argument := by
        simpa using ⟨hadmin, hrotates.1, hrange⟩
      obtain ⟨result, s₂, haudit, haudited, hresult⟩ :=
        audit_outcome hknown harguments hdelivery hkey
      have hrotated := hhalf.rotated haudited
      have husers := haudited.users.trans hhalf.users
      rcases hresult with ⟨⟨id, rfl⟩, hanswered⟩ | ⟨⟨e, rfl⟩, hlost⟩
      · refine ⟨.ok (encodeHex (crypto.sha256 r.vNewSeed.1)), s₂, ?_, hrotated, husers,
          .inl ⟨⟨_, rfl⟩, hanswered⟩⟩
        exact (outcome_bind_of_ok hrun).trans
          ((outcome_bind_of_ok hbal).trans (outcome_bind_of_ok haudit))
      · refine ⟨.error e, s₂, ?_, hrotated, husers, .inr ⟨⟨e, rfl⟩, hlost⟩⟩
        exact (outcome_bind_of_ok hrun).trans
          ((outcome_bind_of_ok hbal).trans (outcome_bind_of_error haudit))
    · exact absurd hbalance hlost
  · exact absurd hrotate hlost

/-! ## All or nothing -/

section AllOrNothing

variable {newSeed : Bytes} {s₁ s₂ : FairnessDatabase}

theorem Rotated.audit_length (hrotated : Rotated crypto newSeed s targetId s₁) :
    s₁.ledger.audit.auditLog.length = s.ledger.audit.auditLog.length + 1 := by
  obtain ⟨entry, hlog, -⟩ := hrotated.audited
  rw [hlog, List.length_append, List.length_singleton]

/-- A rotated seed is a new row, or a row of the history more. -/
theorem RotatesSeed.shows (hseed : RotatesSeed crypto newSeed s targetId s₁) :
    s₁.userSeeds.get? targetId ≠ s.userSeeds.get? targetId ∨
      s₁.history.length = s.history.length + 1 := by
  obtain ⟨row, hrow, -⟩ := hseed.seed
  cases hexisting : s.userSeeds.get? targetId with
  | none => exact .inl (by rw [hrow]; exact Option.some_ne_none row)
  | some existing =>
      refine .inr ?_
      rw [hseed.history, hexisting, List.length_append]
      rfl

theorem HalfRotated.not_untouched (hhalf : HalfRotated crypto newSeed s targetId s₁) :
    ¬ Untouched s s₁ := by
  intro huntouched
  rcases hhalf.shows with hrow | hlength
  · exact hrow (by rw [huntouched.userSeeds])
  · rw [huntouched.history] at hlength
    omega

theorem HalfRotated.not_rotated (hhalf : HalfRotated crypto newSeed s targetId s₁) :
    ¬ Rotated crypto newSeed s targetId s₁ := by
  intro hrotated
  have hlength := hrotated.audit_length
  rw [hhalf.auditLog] at hlength
  omega

theorem Untouched.of_tables (hsame : s₁.tables = s.tables) : Untouched s s₁ := by
  simp only [FairnessDatabase.tables, Prod.mk.injEq] at hsame
  exact ⟨hsame.1, hsame.2.1, hsame.2.2.1⟩

/-- How a rotation can end. -/
inductive RotationEnds (crypto : Crypto) (r : Rotation) (s : FairnessDatabase)
    (adminActorId targetId : Int) : Except RotationError String → FairnessDatabase → Prop
  | rejected {e : RotationError} {s' : FairnessDatabase} (hrejected : ¬ r.Rotates s targetId)
      (hsame : s'.tables = s.tables) : RotationEnds crypto r s adminActorId targetId (.error e) s'
  | halfWay {e : RotationError} {s' : FairnessDatabase}
      (hhalfWay : r.HalfWay s adminActorId targetId)
      (hhalf : HalfRotated crypto r.vNewSeed.1 s targetId s') :
      RotationEnds crypto r s adminActorId targetId (.error e) s'
  | unanswered {e : RotationError} {s' : FairnessDatabase} (haudits : r.Audits adminActorId)
      (hlost : r.audit ≠ .answered) (hrotated : Rotated crypto r.vNewSeed.1 s targetId s') :
      RotationEnds crypto r s adminActorId targetId (.error e) s'
  | returned {hash : String} {s' : FairnessDatabase} (hcompletes : r.Completes s adminActorId targetId)
      (hrotated : Rotated crypto r.vNewSeed.1 s targetId s')
      (husers : s'.ledger.users = s.ledger.users) :
      RotationEnds crypto r s adminActorId targetId (.ok hash) s'

theorem rotateOne_ends (crypto : Crypto) (r : Rotation) (s : FairnessDatabase)
    (adminActorId targetId : Int) (reason : String) :
    RotationEnds crypto r s adminActorId targetId
      ((rotateOne crypto r adminActorId reason targetId).outcome s).1
      ((rotateOne crypto r adminActorId reason targetId).outcome s).2 := by
  by_cases hrotates : r.Rotates s targetId
  · by_cases haudits : r.Audits adminActorId
    · obtain ⟨result, s', hrun, hrotated, husers, hresult⟩ :=
        rotateOne_rotated crypto reason hrotates haudits
      rw [hrun]
      rcases hresult with ⟨⟨hash, rfl⟩, hanswered⟩ | ⟨⟨e, rfl⟩, hlost⟩
      · exact .returned ⟨hrotates, haudits, hanswered⟩ hrotated husers
      · exact .unanswered haudits hlost hrotated
    · obtain ⟨e, s', hrun, hhalf⟩ := rotateOne_halfWay crypto reason ⟨hrotates, haudits⟩
      rw [hrun]
      exact .halfWay ⟨hrotates, haudits⟩ hhalf
  · obtain ⟨e, s', hrun, hsame⟩ := rotateOne_rejected crypto adminActorId reason hrotates
    rw [hrun]
    exact .rejected hrotates hsame

/-- One rotation is all or nothing unless it breaks off half way. -/
theorem rotateOne_allOrNothing (crypto : Crypto) (r : Rotation) (s : FairnessDatabase)
    (adminActorId targetId : Int) (reason : String) :
    (Rotated crypto r.vNewSeed.1 s targetId
          ((rotateOne crypto r adminActorId reason targetId).outcome s).2 ∨
        Untouched s ((rotateOne crypto r adminActorId reason targetId).outcome s).2) ↔
      ¬ r.HalfWay s adminActorId targetId := by
  have hends := rotateOne_ends crypto r s adminActorId targetId reason
  generalize ((rotateOne crypto r adminActorId reason targetId).outcome s).1 = result at hends
  generalize ((rotateOne crypto r adminActorId reason targetId).outcome s).2 = s' at hends ⊢
  cases hends with
  | rejected hrejected hsame =>
      exact iff_of_true (.inr (.of_tables hsame)) fun hhalfWay => hrejected hhalfWay.1
  | halfWay hhalfWay hhalf =>
      exact iff_of_false (not_or_intro hhalf.not_rotated hhalf.not_untouched) (not_not_intro hhalfWay)
  | unanswered haudits _ hrotated =>
      exact iff_of_true (.inl hrotated) fun hhalfWay => hhalfWay.2 haudits
  | returned hcompletes hrotated _ =>
      exact iff_of_true (.inl hrotated) fun hhalfWay => hhalfWay.2 hcompletes.2.1

/-! ## One user after the other -/

variable {seeds : Int → Bytes} {done : List Int}

theorem Untouched.rotated (huntouched : Untouched s s₁)
    (hrotated : Rotated crypto newSeed s₁ targetId s₂) : Rotated crypto newSeed s targetId s₂ := by
  have hrow : s₁.userSeeds.get? targetId = s.userSeeds.get? targetId := by
    rw [huntouched.userSeeds]
  exact
    { seed := hrow ▸ hrotated.seed
      others := huntouched.userSeeds ▸ hrotated.others
      history := by rw [hrotated.history, hrow, huntouched.history]
      audited := huntouched.auditLog ▸ hrotated.audited }

theorem Untouched.trans (hfirst : Untouched s s₁) (hsecond : Untouched s₁ s₂) : Untouched s s₂ :=
  ⟨hsecond.userSeeds.trans hfirst.userSeeds, hsecond.history.trans hfirst.history,
    hsecond.auditLog.trans hfirst.auditLog⟩

theorem RotatedEach.untouched (heach : RotatedEach crypto seeds s done s₁)
    (huntouched : Untouched s₁ s₂) : RotatedEach crypto seeds s done s₂ := by
  induction heach with
  | nil hsame => exact .nil (hsame.trans huntouched)
  | cons hrotated _ ih => exact .cons hrotated (ih huntouched)

theorem RotatedEach.concat (heach : RotatedEach crypto seeds s done s₁)
    (hrotated : Rotated crypto (seeds targetId) s₁ targetId s₂) :
    RotatedEach crypto seeds s (done ++ [targetId]) s₂ := by
  induction heach with
  | nil hsame => exact .cons (hsame.rotated hrotated) (.nil ⟨rfl, rfl, rfl⟩)
  | cons hfirst _ ih => exact .cons hfirst (ih hrotated)

theorem RotatedEach.audit_length (heach : RotatedEach crypto seeds s done s₁) :
    s₁.ledger.audit.auditLog.length = s.ledger.audit.auditLog.length + done.length := by
  induction heach with
  | nil hsame => rw [hsame.auditLog, List.length_nil, Nat.add_zero]
  | cons hrotated _ ih =>
      rw [ih, hrotated.audit_length, List.length_cons]
      omega

theorem RotatedEach.get?_of_notMem (heach : RotatedEach crypto seeds s done s₁)
    (hother : targetId ∉ done) : s₁.userSeeds.get? targetId = s.userSeeds.get? targetId := by
  induction heach with
  | nil hsame => rw [hsame.userSeeds]
  | cons hrotated _ ih =>
      rw [List.mem_cons, not_or] at hother
      rw [ih hother.2, hrotated.others _ hother.1]

/-- The history grows by the seeds that the users had. -/
theorem RotatedEach.history (heach : RotatedEach crypto seeds s done s₁) (hnodup : done.Nodup) :
    s₁.history = s.history ++ done.flatMap fun id =>
      (rotation (s.userSeeds.get? id) id (seeds id)).history.toList := by
  induction heach with
  | nil hsame => rw [hsame.history, List.flatMap_nil, List.append_nil]
  | @cons before mid after targetId rest hrotated _ ih =>
      obtain ⟨hfresh, hrest⟩ := List.nodup_cons.mp hnodup
      have hothers : ∀ id ∈ rest, mid.userSeeds.get? id = before.userSeeds.get? id :=
        fun id hid => hrotated.others id fun heq => hfresh (heq ▸ hid)
      rw [ih hrest, hrotated.history, List.flatMap_cons, List.append_assoc]
      congr 2
      exact List.flatMap_congr fun id hid => by rw [hothers id hid]

/-- After some rotations, one more half of a rotation is no row of rotations. -/
theorem RotatedEach.not_halfRotated {done' rest rest' : List Int}
    (heach : RotatedEach crypto seeds s done s₁)
    (hhalf : HalfRotated crypto newSeed s₁ targetId s₂)
    (heach' : RotatedEach crypto seeds s done' s₂)
    (hsplit : done ++ targetId :: rest = done' ++ rest')
    (hnodup : (done ++ targetId :: rest).Nodup) : False := by
  have hlength : done.length = done'.length := by
    have haudit := heach.audit_length
    have haudit' := heach'.audit_length
    rw [hhalf.auditLog, haudit] at haudit'
    omega
  obtain rfl : done = done' := (List.append_inj hsplit hlength).1
  obtain ⟨hdone, -, hdisjoint⟩ := List.nodup_append.mp hnodup
  have hfresh : targetId ∉ done := fun hmem => hdisjoint _ hmem _ List.mem_cons_self rfl
  rcases hhalf.shows with hrow | hhistory
  · exact hrow ((heach'.get?_of_notMem hfresh).trans (heach.get?_of_notMem hfresh).symm)
  · rw [heach'.history hdone, heach.history hdone] at hhistory
    omega

variable {rotations : Int → Rotation} {reason : String}

theorem Rotation.completes_congr (husers : s₁.ledger.users = s.ledger.users) :
    r.Completes s₁ adminActorId targetId ↔ r.Completes s adminActorId targetId := by
  simp only [Rotation.Completes, Rotation.Rotates, husers]

theorem Rotation.halfWay_congr (husers : s₁.ledger.users = s.ledger.users) :
    r.HalfWay s₁ adminActorId targetId ↔ r.HalfWay s adminActorId targetId := by
  simp only [Rotation.HalfWay, Rotation.Rotates, husers]

/-- Users whose rotations returned are rotated, and met nothing in their way. -/
theorem rotatedEach_of_returns
    (hreturns : Returns (fun uid => rotateOne crypto (rotations uid) adminActorId reason uid)
      s done s₁) :
    RotatedEach crypto (fun uid => (rotations uid).vNewSeed.1) s done s₁ ∧
      (∀ uid ∈ done, (rotations uid).Completes s adminActorId uid) ∧
      s₁.ledger.users = s.ledger.users := by
  induction hreturns with
  | nil s => exact ⟨.nil ⟨rfl, rfl, rfl⟩, by simp, rfl⟩
  | @cons s mid after uid rest hash hitem _ ih =>
      obtain ⟨heach, hcompletes, husers⟩ := ih
      have hends := rotateOne_ends crypto (rotations uid) s adminActorId uid reason
      rw [hitem] at hends
      cases hends with
      | returned hcompletesHere hrotated husersHere =>
          refine ⟨.cons hrotated heach, fun other hother => ?_, husers.trans husersHere⟩
          rcases List.mem_cons.mp hother with rfl | hrest
          · exact hcompletesHere
          · exact (Rotation.completes_congr husersHere).mp (hcompletes other hrest)

/-- Rotations that meet nothing in their way return. -/
theorem returns_of_completes (crypto : Crypto) (reason : String)
    (hcompletes : ∀ uid ∈ done, (rotations uid).Completes s adminActorId uid) :
    ∃ s₁, Returns (fun uid => rotateOne crypto (rotations uid) adminActorId reason uid) s done s₁ := by
  induction done generalizing s with
  | nil => exact ⟨s, .nil s⟩
  | cons uid rest ih =>
      have hfirst := hcompletes uid List.mem_cons_self
      have hends := rotateOne_ends crypto (rotations uid) s adminActorId uid reason
      rcases hitem : (rotateOne crypto (rotations uid) adminActorId reason uid).outcome s with
        ⟨result, mid⟩
      rw [hitem] at hends
      cases hends with
      | rejected hrejected _ => exact absurd hfirst.1 hrejected
      | halfWay hhalfWay _ => exact absurd hfirst.2.1 hhalfWay.2
      | unanswered _ hlost _ => exact absurd hfirst.2.2 hlost
      | returned _ _ husers =>
          obtain ⟨s₁, hrest⟩ := ih fun other hother =>
            (Rotation.completes_congr husers).mpr (hcompletes other (List.mem_cons_of_mem _ hother))
          exact ⟨s₁, .cons hitem hrest⟩

/-- A run over some users rotates the first of them and touches nothing else, unless one of
the rotations breaks off half way. -/
theorem each_allOrNothing {ids : List Int} (hnodup : ids.Nodup) :
    (∃ done rest, ids = done ++ rest ∧
        RotatedEach crypto (fun uid => (rotations uid).vNewSeed.1) s done
          ((each (fun uid => rotateOne crypto (rotations uid) adminActorId reason uid)
            ids).outcome s).2) ↔
      ∀ done uid rest, ids = done ++ uid :: rest →
        (∀ earlier ∈ done, (rotations earlier).Completes s adminActorId earlier) →
          ¬ (rotations uid).HalfWay s adminActorId uid := by
  constructor
  · rintro ⟨done', rest', hsplit', heach'⟩ done uid rest rfl hcompletes hhalfWay
    obtain ⟨s₁, hreturns⟩ := returns_of_completes crypto reason hcompletes
    obtain ⟨heach, -, husers⟩ := rotatedEach_of_returns hreturns
    obtain ⟨e, s₂, hitem, hhalf⟩ :=
      rotateOne_halfWay crypto reason ((Rotation.halfWay_congr husers).mpr hhalfWay)
    rw [each_outcome_of_error hreturns hitem] at heach'
    exact heach.not_halfRotated hhalf heach' hsplit' hnodup
  · intro hnone
    have hstops := each_stops (fun uid => rotateOne crypto (rotations uid) adminActorId reason uid)
      ids s
    generalize ((each (fun uid => rotateOne crypto (rotations uid) adminActorId reason uid)
      ids).outcome s).1 = result at hstops
    generalize ((each (fun uid => rotateOne crypto (rotations uid) adminActorId reason uid)
      ids).outcome s).2 = s₂ at hstops ⊢
    cases hstops with
    | through hdone =>
        exact ⟨ids, [], (List.append_nil ids).symm, (rotatedEach_of_returns hdone).1⟩
    | @failedAt s₁ _ done uid rest e hitems hdone hitem =>
        obtain ⟨heach, hcompletes, husers⟩ := rotatedEach_of_returns hdone
        have hends := rotateOne_ends crypto (rotations uid) s₁ adminActorId uid reason
        rw [hitem] at hends
        cases hends with
        | rejected _ hsame =>
            exact ⟨done, uid :: rest, hitems, heach.untouched (.of_tables hsame)⟩
        | halfWay hhalfWay _ =>
            exact absurd ((Rotation.halfWay_congr husers).mp hhalfWay)
              (hnone done uid rest hitems hcompletes)
        | unanswered _ _ hrotated =>
            exact ⟨done ++ [uid], rest, by rw [hitems, List.append_assoc]; rfl,
              heach.concat hrotated⟩

/-- The final state of the script is that of the run over its users. -/
theorem mainAsync_state (crypto : Crypto) (rotations : Int → Rotation) (adminActorId : Int)
    (targetUser : Option Int) (listing : Delivery) (reason : String) (s : FairnessDatabase) :
    ((mainAsync crypto rotations adminActorId targetUser listing reason).outcome s).2 =
      ((each (fun uid => rotateOne crypto (rotations uid) adminActorId reason uid)
        (rotationTargets s targetUser listing)).outcome s).2 := by
  cases targetUser with
  | some targetId => rfl
  | none =>
      have hnone : ∀ argument ∈ ([] : List Int), InBigint argument := by simp
      have hwp : (do return allUserIds (← get) : FairnessTx (List Int)).wp
          (fun ids s' => ids = allUserIds s ∧ s' = s) (fun _ => False) s := ⟨rfl, rfl⟩
      unfold mainAsync
      dsimp only
      cases listing with
      | answered =>
          obtain ⟨ids, s', hrun, rfl, rfl⟩ := statement_answered hnone hwp
          rw [outcome_bind_of_ok hrun]
          rfl
      | undone =>
          obtain ⟨e, hrun⟩ := statement_undone
          rw [outcome_bind_of_error hrun]
          rfl
      | unanswered =>
          obtain ⟨_, s', hrun, -, rfl⟩ := statement_unanswered hnone hwp
          rw [outcome_bind_of_error hrun]
          rfl

theorem rotationTargets_nodup (s : FairnessDatabase) (targetUser : Option Int)
    (listing : Delivery) : (rotationTargets s targetUser listing).Nodup := by
  cases targetUser with
  | some targetId => exact List.nodup_singleton targetId
  | none =>
      rw [rotationTargets]
      split
      next => exact (List.perm_insertionSort _ _).nodup_iff.mpr s.userSeeds.nodup_keys
      next => exact List.nodup_nil

end AllOrNothing

/-- A rotation, and a run of the script over one user or all, is all or nothing exactly when no
rotation that it comes to commits its first statement without its last. -/
theorem allOrNothing_iff_no_halfWay (crypto : Crypto) (rotations : Int → Rotation)
    (s : FairnessDatabase) (adminActorId : Int) (reason : String) :
    (∀ targetId,
      (Rotated crypto (rotations targetId).vNewSeed.1 s targetId
            ((rotateOne crypto (rotations targetId) adminActorId reason targetId).outcome s).2 ∨
          Untouched s
            ((rotateOne crypto (rotations targetId) adminActorId reason targetId).outcome s).2) ↔
        ¬ (rotations targetId).HalfWay s adminActorId targetId) ∧
    ∀ targetUser listing,
      (∃ done rest, rotationTargets s targetUser listing = done ++ rest ∧
          RotatedEach crypto (fun uid => (rotations uid).vNewSeed.1) s done
            ((mainAsync crypto rotations adminActorId targetUser listing reason).outcome s).2) ↔
        ∀ done uid rest, rotationTargets s targetUser listing = done ++ uid :: rest →
          (∀ earlier ∈ done, (rotations earlier).Completes s adminActorId earlier) →
            ¬ (rotations uid).HalfWay s adminActorId uid := by
  refine ⟨fun targetId => rotateOne_allOrNothing _ _ _ _ _ _, fun targetUser listing => ?_⟩
  rw [mainAsync_state]
  exact each_allOrNothing (rotationTargets_nodup s targetUser listing)

/-- A user with a seed that has been drawn from three times. -/
def seededUser : FairnessDatabase where
  ledger := { Database.seeded with users := .ofList [(0, {}), (7, {})] }
  userSeeds := .ofList [(7, ⟨List.replicate 32 1, List.replicate 32 1, "luck", 3⟩)]
  history := []

/-- A rotation in a database without an audit chain key. -/
def keylessRotation : Rotation where
  env := { Env.plain with auditChainKey := none }
  vNewSeed := ⟨List.replicate 32 2, List.length_replicate⟩
  clientBytes := ⟨List.replicate 8 0, List.length_replicate⟩

/-- Without the chain key the seed is rotated and archived, and not audited. -/
theorem keylessRotation_halfWay :
    let crypto : Crypto := { hmacSha512 := fun _ text => text, sha256 := fun text => text }
    let after := ((rotateOne crypto keylessRotation 99 "admin force-rotation" 7).outcome
      seededUser).2
    ¬ (Rotated crypto keylessRotation.vNewSeed.1 seededUser 7 after ∨ Untouched seededUser after) ∧
      (after.userSeeds.get? 7).map UserSeed.serverSeed = some (List.replicate 32 2) ∧
      after.history = [⟨7, List.replicate 32 1, List.replicate 32 1, "luck", 3, .admin⟩] ∧
      after.ledger.audit.auditLog.length = 0 := by
  intro crypto after
  have hhalfWay : keylessRotation.HalfWay seededUser 99 7 := by
    refine ⟨⟨by decide, by decide, by decide⟩, fun haudits => ?_⟩
    obtain ⟨-, -, -, -, key, hkey⟩ := haudits
    cases hkey
  refine ⟨fun hall => (rotateOne_allOrNothing _ _ _ _ _ _).mp hall hhalfWay, ?_, ?_, ?_⟩
  · decide +kernel
  · decide +kernel
  · decide +kernel

end DeathRoll
