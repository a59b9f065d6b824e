import DeathRoll.Interleaved.Rows
import DeathRoll.Ledger.Runs
import DeathRoll.Relational.Lockstep

/-! # Cashier sessions under concurrency

`dw.set_cashier_status` and `dw.expire_cashier`, statement by statement. A session
is opened or ended by the status that was read under the lock of the cashier's row;
the first call for a cashier has no row to lock, so another call may put one in
before it overwrites it.
-/

namespace DeathRoll.Interleaved

open Relational Script

/-! ## The functions -/

def lockCashier (discordId : Int) : LedgerScript (Option CashierRow) :=
  lock (LedgerKey.cashierStatus discordId)

/-- `SELECT status FROM dw.cashier_status WHERE discord_id = _ FOR UPDATE`. -/
def selectStatus : Option Int → LedgerScript (Option CashierState)
  | none => pure none
  | some discordId => do
      let row ← lockCashier discordId
      return row.map fun row => row.status.status

/-- Assign to the columns of a cashier's rows. -/
def updateCashier (discordId : Int) (assign : CashierRow → CashierRow) : LedgerScript Unit := do
  match ← lockCashier discordId with
  | none => pure ()
  | some row => store (.cashierStatus discordId) (assign row)

/-- The values of a new status. -/
def freshStatus (env : Env) (status : CashierState) : CashierStatus :=
  { status, setAt := env.now, lastActiveAt := env.now }

/-- `INSERT INTO dw.cashier_sessions (discord_id, started_at) VALUES (_, NOW())`. -/
def openSession (env : Env) (discordId : Int) (row : CashierRow) : CashierRow :=
  { row with sessions := row.sessions ++ [{ discordId, startedAt := env.now }] }

/-- `UPDATE dw.cashier_sessions SET ended_at = NOW(), duration_s = _, end_reason = _
WHERE discord_id = _ AND ended_at IS NULL`. -/
def endSessions (env : Env) (reason : SessionEnd) (row : CashierRow) : CashierRow :=
  { row with
    sessions := row.sessions.map fun session =>
      if session.endedAt = none then
        { session with
          endedAt := some env.now
          durationS := some (epochSeconds (env.now - session.startedAt))
          endReason := some reason }
      else session }

/-- `dw.set_cashier_status` once the status is stored: the sessions and the audit row. -/
def finishStatus (env : Env) (discordId : Int) (status : CashierState)
    (vOldStatus : Option CashierState) : LedgerScript Unit := do
  ifDo (status = .online ∧ vOldStatus ≠ some .online) <|
    updateCashier discordId (openSession env discordId)
  ifDo (status ≠ .online ∧ vOldStatus = some .online) <|
    updateCashier discordId
      (endSessions env (if status = .break then .manualBreak else .manualOffline))
  let target ← registeredOr0 discordId
  auditLogInsertWithChain env
    { actorType := .cashier
      actorId := some discordId
      targetId := some target
      action := some ("cashier_status_" ++ status.text)
      amount := none
      balanceBefore := some 0
      balanceAfter := some 0
      reason := some ("Cashier moved to " ++ status.text)
      refType := some "cashier_status"
      refId := some (toString discordId)
      botName := "dw"
      metadata := .obj [("previous", .text ((vOldStatus.map CashierState.text).getD "never"))] }

/-- `ON CONFLICT (discord_id) DO UPDATE SET ...`, and what follows. -/
def overwriteStatus (env : Env) (discordId : Int) (status : CashierState)
    (vOldStatus : Option CashierState) : LedgerScript Unit := do
  updateCashier discordId fun row => { row with status := freshStatus env status }
  finishStatus env discordId status vOldStatus

/-- `INSERT INTO dw.cashier_status ... ON CONFLICT (discord_id) DO UPDATE SET ...`, and
what follows. -/
def upsertStatus (env : Env) (discordId : Int) (status : CashierState)
    (vOldStatus : Option CashierState) : LedgerScript Unit := do
  let added ← add (.cashierStatus discordId) (⟨freshStatus env status, []⟩ : CashierRow)
  if added = false then overwriteStatus env discordId status vOldStatus
  else finishStatus env discordId status vOldStatus

def setCashierStatus (env : Env) (pDiscordId : Option Int) (pStatus : Option String) :
    LedgerScript Unit := do
  raiseIf (IsNotIn pStatus CashierState.texts) (.invalidStatus pStatus)
  let vOldStatus ← selectStatus pDiscordId
  let discordId ← notNull "discord_id" pDiscordId
  let text ← notNull "status" pStatus
  let status ← require (.checkViolation "status") (CashierState.ofText text)
  upsertStatus env discordId status vOldStatus

def expireCashier (env : Env) (pDiscordId : Option Int) : LedgerScript Unit := do
  let vOldStatus ← selectStatus pDiscordId
  raiseIf (vOldStatus ≠ some .online) .cashierNotOnline
  let discordId ← notNull "discord_id" pDiscordId
  updateCashier discordId fun row => { row with status := freshStatus env .offline }
  updateCashier discordId (endSessions env .expired)
  auditLogInsertWithChain env
    { actorType := .system
      actorId := some 0
      targetId := pDiscordId
      action := some "cashier_status_offline_expired"
      amount := none
      balanceBefore := some 0
      balanceAfter := some 0
      reason := some "idle for >1h — auto-offline by cashier_idle_worker"
      refType := some "cashier_status"
      refId := some (toString discordId)
      botName := "dw"
      metadata := .obj [("previous", .text CashierState.online.text)] }

inductive SessionCall where
  | setCashierStatus (pDiscordId : Option Int) (pStatus : Option String)
  | expireCashier (pDiscordId : Option Int)

def sessionBody : Env × SessionCall → LedgerScript Unit
  | (env, .setCashierStatus pDiscordId pStatus) => setCashierStatus env pDiscordId pStatus
  | (env, .expireCashier pDiscordId) => expireCashier env pDiscordId

/-! ## A first call that keeps off rows that are online -/

/-- As `overwriteStatus` without an old status, on a row that is not online. -/
def guardedOverwrite (env : Env) (discordId : Int) (status : CashierState) :
    LedgerScript Unit := do
  match ← lockCashier discordId with
  | none => finishStatus env discordId status none
  | some row =>
      raiseIf (row.status.status = .online) .cashierNotOnline
      store (.cashierStatus discordId) ({ row with status := freshStatus env status } : CashierRow)
      finishStatus env discordId status none

/-- As `upsertStatus`, guarded when there is no old status. -/
def guardedUpsert (env : Env) (discordId : Int) (status : CashierState) :
    Option CashierState → LedgerScript Unit
  | some vOldStatus => upsertStatus env discordId status (some vOldStatus)
  | none => do
      let added ← add (.cashierStatus discordId) (⟨freshStatus env status, []⟩ : CashierRow)
      if added = false then guardedOverwrite env discordId status
      else finishStatus env discordId status none

/-- `dw.set_cashier_status` with the guard. -/
def guardedSet (env : Env) (pDiscordId : Option Int) (pStatus : Option String) :
    LedgerScript Unit := do
  raiseIf (IsNotIn pStatus CashierState.texts) (.invalidStatus pStatus)
  let vOldStatus ← selectStatus pDiscordId
  let discordId ← notNull "discord_id" pDiscordId
  let text ← notNull "status" pStatus
  let status ← require (.checkViolation "status") (CashierState.ofText text)
  guardedUpsert env discordId status vOldStatus

def guardedBody : Env × SessionCall → LedgerScript Unit
  | (env, .setCashierStatus pDiscordId pStatus) => guardedSet env pDiscordId pStatus
  | (env, .expireCashier pDiscordId) => expireCashier env pDiscordId

/-! ## What the calls write -/

/-- The sessions of a cashier who has moved on from an old status. -/
def CashierRow.finish (env : Env) (discordId : Int) (status : CashierState)
    (vOldStatus : Option CashierState) (row : CashierRow) : CashierRow :=
  if status = .online ∧ vOldStatus ≠ some .online then openSession env discordId row
  else if status ≠ .online ∧ vOldStatus = some .online then
    endSessions env (if status = .break then .manualBreak else .manualOffline) row
  else row

/-- The rows of a cashier whose status changes. -/
def CashierRow.move (env : Env) (discordId : Int) (status : CashierState) (row : CashierRow) :
    CashierRow :=
  CashierRow.finish env discordId status (some row.status.status)
    { row with status := freshStatus env status }

/-- A cashier that has never been online. -/
def CashierRow.never (env : Env) : CashierRow := ⟨freshStatus env .offline, []⟩

/-- What a call that returns has done to the cashiers. -/
inductive SessionWrites (env : Env) : LedgerRows → LedgerRows → Prop
  | set {before after : LedgerRows} {discordId : Int} {status : CashierState}
      (hrow : after (.cashierStatus discordId) =
        some (((before (.cashierStatus discordId)).getD (.never env)).move env discordId status))
      (hothers : ∀ other, other ≠ discordId →
        after (.cashierStatus other) = before (.cashierStatus other)) :
      SessionWrites env before after
  | expire {before after : LedgerRows} {discordId : Int} {row : CashierRow}
      (hbefore : before (.cashierStatus discordId) = some row)
      (hrow : after (.cashierStatus discordId) =
        some (endSessions env .expired { row with status := freshStatus env .offline }))
      (hothers : ∀ other, other ≠ discordId →
        after (.cashierStatus other) = before (.cashierStatus other)) :
      SessionWrites env before after

variable {known : Set LedgerKey} {rows : LedgerRows}

theorem post_lockCashier {Q : Option CashierRow → Set LedgerKey → LedgerRows → Prop}
    (discordId : Int) :
    (lockCashier discordId).Post ledgerSchema Q known rows ↔
      (.cashierStatus discordId ∉ known → Q none known rows) ∧
        ∀ row, rows (.cashierStatus discordId) = some row → ∀ known', known ⊆ known' →
          .cashierStatus discordId ∈ known' → Q (some row) known' rows :=
  post_lock_of_refs fun _ => rfl

theorem post_updateCashier {Q : Unit → Set LedgerKey → LedgerRows → Prop} {discordId : Int}
    {row : CashierRow} (assign : CashierRow → CashierRow)
    (hknown : .cashierStatus discordId ∈ known)
    (hrow : rows (.cashierStatus discordId) = some row)
    (h : ∀ known', known ⊆ known' →
      Q () known' (Function.update rows (.cashierStatus discordId) (some (assign row)))) :
    (updateCashier discordId assign).Post ledgerSchema Q known rows := by
  simp only [updateCashier, post_bind, post_lockCashier]
  refine ⟨fun hnone => (hnone hknown).elim, ?_⟩
  intro row' hrow' known' hgrow hknown'
  cases hrow.symm.trans hrow'
  rw [post_store_of_refs rfl]
  exact fun _ => ⟨fun _ _ => trivial, h known' hgrow⟩

theorem post_finishStatus {Q : Unit → Set LedgerKey → LedgerRows → Prop} (env : Env)
    {discordId : Int} (status : CashierState) (vOldStatus : Option CashierState) {row : CashierRow}
    (hlog : .auditLog ∈ known) (hknown : .cashierStatus discordId ∈ known)
    (hrow : rows (.cashierStatus discordId) = some row)
    (h : ∀ known' after,
      after (.cashierStatus discordId) = some (row.finish env discordId status vOldStatus) →
      (∀ other, other ≠ discordId → after (.cashierStatus other) = rows (.cashierStatus other)) →
      Q () known' after) :
    (finishStatus env discordId status vOldStatus).Post ledgerSchema Q known rows := by
  -- each of the three branches ends with the audit row, which leaves the statuses alone
  have haudit : ∀ {known' : Set LedgerKey} {mid : LedgerRows} (p : AuditParams),
      .auditLog ∈ known' →
      mid (.cashierStatus discordId) = some (row.finish env discordId status vOldStatus) →
      (∀ other, other ≠ discordId → mid (.cashierStatus other) = rows (.cashierStatus other)) →
      (auditLogInsertWithChain env p).Post ledgerSchema Q known' mid := by
    intro known' mid p hlog hmid hothers
    apply post_auditLogInsertWithChain _ _ hlog
    intro known'' content hgrow hcontent htarget
    apply h
    · rw [Function.update_of_ne (by simp), hmid]
    · intro other hother
      rw [Function.update_of_ne (by simp), hothers other hother]
  simp only [finishStatus, post_bind, post_ifDo]
  constructor
  · intro hopens
    apply post_updateCashier _ hknown hrow
    intro known₁ hgrow₁
    -- a session that opens does not end as well
    refine ⟨fun hends => (hends.1 hopens.1).elim, fun _ => ?_⟩
    apply post_registeredOr0
    intro known₂ target hgrow₂
    apply haudit _ (hgrow₂ (hgrow₁ hlog))
    · rw [Function.update_self, CashierRow.finish, if_pos hopens]
    · exact fun other hother => Function.update_of_ne (by simp [hother]) _ _
  · intro hopens
    constructor
    · intro hends
      apply post_updateCashier _ hknown hrow
      intro known₁ hgrow₁
      apply post_registeredOr0
      intro known₂ target hgrow₂
      apply haudit _ (hgrow₂ (hgrow₁ hlog))
      · rw [Function.update_self, CashierRow.finish, if_neg hopens, if_pos hends]
      · exact fun other hother => Function.update_of_ne (by simp [hother]) _ _
    · intro hends
      apply post_registeredOr0
      intro known₁ target hgrow₁
      apply haudit _ (hgrow₁ hlog)
      · rw [hrow, CashierRow.finish, if_neg hopens, if_neg hends]
      · exact fun other hother => rfl

/-- With the status of the row itself, or none when the row is not online, the
sessions move with the status. -/
theorem CashierRow.finish_eq_move (env : Env) (discordId : Int) (status : CashierState)
    {vOldStatus : Option CashierState} {row : CashierRow}
    (hold : vOldStatus = some .online ↔ row.status.status = .online) :
    CashierRow.finish env discordId status vOldStatus { row with status := freshStatus env status } =
      row.move env discordId status := by
  simp only [CashierRow.move, CashierRow.finish, ne_eq, hold, Option.some.injEq]

/-- The new status is stored, and the sessions follow it. -/
theorem post_moved (env : Env) {discordId : Int} (status : CashierState)
    {vOldStatus : Option CashierState} {row : CashierRow} (hlog : .auditLog ∈ known)
    (hknown : .cashierStatus discordId ∈ known)
    (hrow : (rows (.cashierStatus discordId)).getD (.never env) = row)
    (hold : vOldStatus = some .online ↔ row.status.status = .online) :
    (finishStatus env discordId status vOldStatus).Post ledgerSchema
      (fun _ _ after => SessionWrites env rows after) known
      (Function.update rows (.cashierStatus discordId)
        (some { row with status := freshStatus env status })) := by
  apply post_finishStatus _ _ _ hlog hknown (Function.update_self ..)
  intro known' after hafter hothers
  apply SessionWrites.set
  · rw [hafter, CashierRow.finish_eq_move env discordId status hold, hrow]
  · intro other hother
    rw [hothers other hother, Function.update_of_ne (by simp [hother])]

/-- A status that was read under the lock is the one that is overwritten. -/
theorem post_upsertStatus (env : Env) {discordId : Int} (status : CashierState) {row : CashierRow}
    (hlog : .auditLog ∈ known) (hrow : rows (.cashierStatus discordId) = some row) :
    (upsertStatus env discordId status (some row.status.status)).Post ledgerSchema
      (fun _ _ after => SessionWrites env rows after) known rows := by
  simp only [upsertStatus, post_bind, post_add]
  constructor
  · intro hnone
    cases hnone.symm.trans hrow
  · intro known₁ hgrow₁ hknown₁ _
    simp only [if_true, overwriteStatus, post_bind]
    apply post_updateCashier _ hknown₁ hrow
    intro known₂ hgrow₂
    exact post_moved env status (hgrow₂ (hgrow₁ hlog)) (hgrow₂ hknown₁) (by rw [hrow]; rfl)
      (by simp)

/-- Without an old status the row is new, or not online. -/
theorem post_guardedUpsert (env : Env) (discordId : Int) (status : CashierState)
    (hlog : .auditLog ∈ known) :
    (guardedUpsert env discordId status none).Post ledgerSchema
      (fun _ _ after => SessionWrites env rows after) known rows := by
  simp only [guardedUpsert, post_bind, post_add]
  constructor
  · intro hnone
    refine ⟨Set.empty_subset _, ?_⟩
    have hnever : (rows (.cashierStatus discordId)).getD (.never env) = .never env := by
      rw [hnone]
      rfl
    rw [if_neg (by simp)]
    exact post_moved env status (Set.mem_insert_of_mem _ hlog) (Set.mem_insert _ _) hnever
      (by simp [CashierRow.never, freshStatus])
  · intro known₁ hgrow₁ hknown₁ _
    simp only [if_true, guardedOverwrite, post_bind, post_lockCashier]
    refine ⟨fun hnone => (hnone hknown₁).elim, ?_⟩
    intro row hrow known₂ hgrow₂ hknown₂
    simp only [post_raiseIf]
    intro hoffline
    rw [post_store_of_refs rfl]
    refine fun _ => ⟨fun _ _ => trivial, ?_⟩
    exact post_moved env status (hgrow₂ (hgrow₁ hlog)) hknown₂ (by rw [hrow]; rfl)
      (by simp [hoffline])

theorem guardedSet_post (env : Env) (pDiscordId : Option Int) (pStatus : Option String)
    (hlog : .auditLog ∈ known) :
    (guardedSet env pDiscordId pStatus).Post ledgerSchema
      (fun _ _ after => SessionWrites env rows after) known rows := by
  simp only [guardedSet, post_bind, post_raiseIf]
  intro hstatus
  cases pDiscordId with
  | none => simp [selectStatus, post_pure, post_notNull]
  | some discordId =>
      simp only [selectStatus, post_bind, post_lockCashier, post_pure, post_notNull, post_require]
      constructor
      · intro _ _ hid text htext status _
        cases hid
        exact post_guardedUpsert env discordId status hlog
      · intro row hrow known₁ hgrow₁ hknown₁ _ hid text htext status _
        cases hid
        exact post_upsertStatus env status (hgrow₁ hlog) hrow

theorem expireCashier_post (env : Env) (pDiscordId : Option Int) (hlog : .auditLog ∈ known) :
    (expireCashier env pDiscordId).Post ledgerSchema
      (fun _ _ after => SessionWrites env rows after) known rows := by
  cases pDiscordId with
  | none => simp [expireCashier, selectStatus, post_bind, post_pure, post_raiseIf]
  | some discordId =>
      simp only [expireCashier, selectStatus, post_bind, post_lockCashier, post_pure,
        post_raiseIf, post_notNull]
      refine ⟨by simp, ?_⟩
      intro row hrow known₁ hgrow₁ hknown₁ honline _ hid
      cases hid
      apply post_updateCashier _ hknown₁ hrow
      intro known₂ hgrow₂
      apply post_updateCashier _ (hgrow₂ hknown₁) (Function.update_self ..)
      intro known₃ hgrow₃
      apply post_auditLogInsertWithChain _ _ (hgrow₃ (hgrow₂ (hgrow₁ hlog)))
      intro known₄ content hgrow₄ hcontent htarget
      apply SessionWrites.expire hrow
      · rw [Function.update_of_ne (by simp), Function.update_self]
      · intro other hother
        rw [Function.update_of_ne (by simp), Function.update_of_ne (by simp [hother]),
          Function.update_of_ne (by simp [hother])]

theorem guardedBody_describes {base : LedgerRows} (hlog : .auditLog ∈ present base) :
    Concurrent.Describes ledgerSchema base
      (fun call before _ after => SessionWrites call.1 before after) guardedBody where
  post := by
    rintro ⟨env, call⟩ rows -
    cases call with
    | setCashierStatus pDiscordId pStatus => exact guardedSet_post env pDiscordId pStatus hlog
    | expireCashier pDiscordId => exact expireCashier_post env pDiscordId hlog

/-! ## Open sessions -/

def CashierRow.openSessions (row : CashierRow) : Nat :=
  row.sessions.countP fun session => session.endedAt = none

/-- The sessions of a cashier with `ended_at IS NULL`. -/
def openSessions (discordId : Int) (rows : LedgerRows) : Nat :=
  ((rows (.cashierStatus discordId)).map CashierRow.openSessions).getD 0

/-- The `dw.cashier_status` of a cashier. -/
def statusOf (discordId : Int) (rows : LedgerRows) : Option CashierState :=
  (rows (.cashierStatus discordId)).map fun row => row.status.status

/-- A cashier has one open session while online, and none otherwise. -/
def SessionsTrack (rows : LedgerRows) : Prop :=
  ∀ discordId, openSessions discordId rows = if statusOf discordId rows = some .online then 1 else 0

/-- One cashier's rows do. -/
def CashierRow.Tracks (row : CashierRow) : Prop :=
  row.openSessions = if row.status.status = .online then 1 else 0

@[simp] theorem openSession_status (env : Env) (discordId : Int) (row : CashierRow) :
    (openSession env discordId row).status = row.status := rfl

@[simp] theorem endSessions_status (env : Env) (reason : SessionEnd) (row : CashierRow) :
    (endSessions env reason row).status = row.status := rfl

@[simp] theorem openSessions_status (row : CashierRow) (status : CashierStatus) :
    CashierRow.openSessions { row with status } = row.openSessions := rfl

@[simp] theorem openSessions_openSession (env : Env) (discordId : Int) (row : CashierRow) :
    (openSession env discordId row).openSessions = row.openSessions + 1 := by
  simp [openSession, CashierRow.openSessions]

@[simp] theorem openSessions_endSessions (env : Env) (reason : SessionEnd) (row : CashierRow) :
    (endSessions env reason row).openSessions = 0 := by
  simp only [endSessions, CashierRow.openSessions, List.countP_map, List.countP_eq_zero]
  intro session _
  by_cases hopen : session.endedAt = none <;> simp [hopen]

theorem CashierRow.tracks_never (env : Env) : (CashierRow.never env).Tracks := by
  simp [CashierRow.Tracks, CashierRow.never, freshStatus, CashierRow.openSessions]

theorem CashierRow.Tracks.move {row : CashierRow} (h : row.Tracks) (env : Env) (discordId : Int)
    (status : CashierState) : (row.move env discordId status).Tracks := by
  unfold CashierRow.Tracks at h ⊢
  unfold CashierRow.move CashierRow.finish
  by_cases hnew : status = .online
  · by_cases hold : row.status.status = .online
    · simpa [hnew, hold, freshStatus] using h
    · simpa [hnew, hold, freshStatus] using h
  · by_cases hold : row.status.status = .online
    · simp [hnew, hold, freshStatus]
    · simpa [hnew, hold, freshStatus] using h

theorem sessionsTrack_iff (rows : LedgerRows) :
    SessionsTrack rows ↔ ∀ discordId row, rows (.cashierStatus discordId) = some row →
      row.Tracks := by
  apply forall_congr'
  intro discordId
  unfold openSessions statusOf CashierRow.Tracks
  cases rows (.cashierStatus discordId) with
  | none => simp
  | some row => simp

theorem SessionWrites.track {env : Env} {before after : LedgerRows}
    (h : SessionWrites env before after) (htrack : SessionsTrack before) :
    SessionsTrack after := by
  rw [sessionsTrack_iff] at htrack ⊢
  have hothers : ∀ discordId, (∀ row, after (.cashierStatus discordId) = some row → row.Tracks) →
      (∀ other, other ≠ discordId →
        after (.cashierStatus other) = before (.cashierStatus other)) →
      ∀ other row, after (.cashierStatus other) = some row → row.Tracks := by
    intro discordId hself hothers other row hrow
    by_cases hother : other = discordId
    · subst hother
      exact hself row hrow
    · rw [hothers other hother] at hrow
      exact htrack other row hrow
  cases h with
  | @set discordId status hrow hsame =>
      apply hothers discordId _ hsame
      intro row hafter
      cases hrow.symm.trans hafter
      cases hbefore : before (.cashierStatus discordId) with
      | none => exact (CashierRow.tracks_never env).move env discordId status
      | some old => exact (htrack discordId old hbefore).move env discordId status
  | @expire discordId old hbefore hrow hsame =>
      apply hothers discordId _ hsame
      intro row hafter
      cases hrow.symm.trans hafter
      simp [CashierRow.Tracks, freshStatus]

/-! ## The guard changes nothing while no first call is overtaken -/

abbrev SessionWorld (τ : Type) :=
  Concurrent τ (Env × SessionCall) LedgerKey.Row DbError Unit

variable {τ : Type} [DecidableEq τ]

/-- A call that found no row at its `SELECT` gets to overwrite a row that is online. -/
def Overtaken (world : SessionWorld τ) (move : Move τ (Env × SessionCall)) : Prop :=
  ∃ tx env discordId pStatus status row, move = .next tx ∧
    world.running tx = some ((env, .setCashierStatus (some discordId) pStatus),
      overwriteStatus env discordId status none) ∧
    (world.rows (.cashierStatus discordId)).session id tx = some (some row) ∧
    row.status.status = .online

/-- Where a call is without and with the guard. -/
inductive Paired : Env × SessionCall → LedgerScript Unit → LedgerScript Unit → Prop
  | same {call : Env × SessionCall} (rest : LedgerScript Unit) : Paired call rest rest
  | started (env : Env) (discordId : Int) (status : CashierState) :
      Paired (env, .setCashierStatus (some discordId) (some status.text))
        (setCashierStatus env (some discordId) (some status.text))
        (guardedSet env (some discordId) (some status.text))
  | upserting (env : Env) (discordId : Int) (pStatus : Option String) (status : CashierState) :
      Paired (env, .setCashierStatus (some discordId) pStatus)
        (upsertStatus env discordId status none) (guardedUpsert env discordId status none)
  | overwriting (env : Env) (discordId : Int) (pStatus : Option String) (status : CashierState) :
      Paired (env, .setCashierStatus (some discordId) pStatus)
        (overwriteStatus env discordId status none) (guardedOverwrite env discordId status)

theorem setCashierStatus_text (env : Env) (discordId : Int) (status : CashierState) :
    setCashierStatus env (some discordId) (some status.text) =
      .select (.cashierStatus discordId) fun row =>
        upsertStatus env discordId status (row.map fun row => row.status.status) := by
  cases status <;> rfl

theorem guardedSet_text (env : Env) (discordId : Int) (status : CashierState) :
    guardedSet env (some discordId) (some status.text) =
      .select (.cashierStatus discordId) fun row =>
        guardedUpsert env discordId status (row.map fun row => row.status.status) := by
  cases status <;> rfl

theorem overwriteStatus_eq (env : Env) (discordId : Int) (status : CashierState)
    (vOldStatus : Option CashierState) :
    overwriteStatus env discordId status vOldStatus =
      .select (.cashierStatus discordId) fun row =>
        match row with
        | none => finishStatus env discordId status vOldStatus
        | some row =>
            .write (.cashierStatus discordId) { row with status := freshStatus env status }
              (finishStatus env discordId status vOldStatus) :=
  congrArg (Script.select _) (funext fun row => by cases row <;> rfl)

/-- On a row that is not online the guard lets the call go on. -/
theorem guardedOverwrite_eq (env : Env) (discordId : Int) (status : CashierState) :
    guardedOverwrite env discordId status =
      .select (.cashierStatus discordId) fun row =>
        match row with
        | none => finishStatus env discordId status none
        | some row =>
            if row.status.status = .online then .fail .cashierNotOnline
            else
              .write (.cashierStatus discordId) { row with status := freshStatus env status }
                (finishStatus env discordId status none) := by
  apply congrArg (Script.select _)
  funext row
  cases row with
  | none => rfl
  | some row =>
      by_cases honline : row.status.status = .online
      · simp only [Script.bind, bind, raiseIf, if_pos honline]
      · simp only [Script.bind, bind, raiseIf, if_neg honline]
        rfl

theorem exists_text_of_mem_texts {text : String} (htext : text ∈ CashierState.texts) :
    ∃ status : CashierState, text = status.text := by
  simp only [CashierState.texts, List.mem_cons, List.not_mem_nil, or_false] at htext
  rcases htext with rfl | rfl | rfl
  · exact ⟨.online, rfl⟩
  · exact ⟨.offline, rfl⟩
  · exact ⟨.break, rfl⟩

/-- Only with a cashier and a status can the guard be met. -/
theorem guardedSet_eq (env : Env) (pDiscordId : Option Int) (pStatus : Option String)
    (hargs : ¬ ∃ discordId status, pDiscordId = some discordId ∧
      pStatus = some (CashierState.text status)) :
    guardedSet env pDiscordId pStatus = setCashierStatus env pDiscordId pStatus := by
  cases pStatus with
  | none =>
      cases pDiscordId with
      | none => rfl
      | some discordId => rfl
  | some text =>
      by_cases htext : text ∈ CashierState.texts
      · obtain ⟨status, rfl⟩ := exists_text_of_mem_texts htext
        cases pDiscordId with
        | none => cases status <;> rfl
        | some discordId => exact (hargs ⟨discordId, status, rfl, rfl⟩).elim
      · simp only [guardedSet, setCashierStatus, raiseIf, isNotIn_some, if_pos htext]
        rfl

theorem paired_body (call : Env × SessionCall) :
    Paired call (sessionBody call) (guardedBody call) := by
  obtain ⟨env, call⟩ := call
  cases call with
  | setCashierStatus pDiscordId pStatus =>
      by_cases hargs : ∃ discordId status, pDiscordId = some discordId ∧
        pStatus = some (CashierState.text status)
      · obtain ⟨discordId, status, rfl, rfl⟩ := hargs
        exact .started env discordId status
      · simp only [sessionBody, guardedBody, guardedSet_eq env pDiscordId pStatus hargs]
        exact .same _
  | expireCashier pDiscordId => exact .same _

theorem Paired.done_iff {call : Env × SessionCall} {rest rest' : LedgerScript Unit}
    (h : Paired call rest rest') (result : Unit) : rest = .done result ↔ rest' = .done result := by
  cases h with
  | same => rfl
  | started env discordId status =>
      rw [setCashierStatus_text, guardedSet_text]
      simp
  | upserting env discordId pStatus status =>
      constructor
      · intro hdone
        cases hdone
      · intro hdone
        cases hdone
  | overwriting env discordId pStatus status =>
      rw [overwriteStatus_eq, guardedOverwrite_eq]
      simp

/-- Unless it is overtaken, a call makes the same access without and with the guard. -/
theorem Paired.inStep {world : SessionWorld τ} {tx : τ} {call : Env × SessionCall}
    {rest rest' : LedgerScript Unit} (h : Paired call rest rest')
    (hrunning : world.running tx = some (call, rest)) (hahead : ¬ Overtaken world (.next tx)) :
    Concurrent.InStep (Paired call) world tx rest rest' := by
  cases h with
  | same => exact Concurrent.inStep_self .same world tx rest
  | started env discordId status =>
      rw [setCashierStatus_text, guardedSet_text]
      apply Concurrent.InStep.select
      · intro _
        exact .upserting env discordId _ status
      · intro row _
        exact .same _
  | upserting env discordId pStatus status =>
      apply Concurrent.InStep.insertNew
      intro inserted
      cases inserted with
      | true => exact .same _
      | false => exact .overwriting env discordId pStatus status
  | overwriting env discordId pStatus status =>
      have hoffline : ∀ row, (world.rows (.cashierStatus discordId)).session id tx =
          some (some row) → row.status.status ≠ .online := by
        intro row hsession honline
        exact hahead ⟨tx, env, discordId, pStatus, status, row, rfl, hrunning, hsession, honline⟩
      rw [overwriteStatus_eq, guardedOverwrite_eq]
      apply Concurrent.InStep.select
      · intro _
        exact .same _
      · intro row hsession
        simp only [if_neg (hoffline row hsession)]
        exact .same _

/-- Starting without cashiers, and while no call that found no row overwrites one that
is online, cashier sessions track the online status. -/
theorem sessions_track {keys : List LedgerKey} {rows : LedgerRows} (hdb : Migrated keys rows)
    (hempty : ∀ discordId, rows (.cashierStatus discordId) = none)
    (moves : List (Move τ (Env × SessionCall)))
    (hahead : ∀ before move, (before, move) ∈ steps (Concurrent.step sessionBody)
      (Concurrent.quiet keys rows : SessionWorld τ) moves → ¬ Overtaken before move) :
    SessionsTrack (run (Concurrent.step sessionBody)
      (Concurrent.quiet keys rows : SessionWorld τ) moves).committed := by
  have hfollows := (Concurrent.follows_quiet Paired keys rows).run paired_body
    (fun _ _ _ result h => h.done_iff result)
    (fun _ _ _ _ _ hahead hrunning h => h.inStep hrunning hahead) hahead
  have hguarded : SessionsTrack (run (Concurrent.step guardedBody)
      (Concurrent.quiet keys rows : SessionWorld τ) moves).committed := by
    apply Concurrent.committed_run (guardedBody_describes hdb.auditLog) _ hdb.toConsistent
    · intro discordId
      simp [openSessions, statusOf, hempty]
    · intro call before result after _ hwrites htrack
      exact hwrites.track htrack
  rwa [hfollows.committed] at hguarded

/-! ## Runs -/

/-- A database without cashiers. -/
def sessionEntries : List ((r : LedgerKey) × r.Row) := [⟨.auditLog, []⟩, ⟨.user 0, {}⟩]

abbrev sessionStart : SessionWorld Nat :=
  .quiet (sessionEntries.map Sigma.fst) (rowsOf sessionEntries)

abbrev sessionRun (moves : List (Move Nat (Env × SessionCall))) : SessionWorld Nat :=
  run (Concurrent.step sessionBody) sessionStart moves

/-- A transaction on its own, with more accesses than its call makes. -/
def alone (tx : Nat) : List (Move Nat (Env × SessionCall)) :=
  List.replicate 12 (.next tx) ++ [.commit tx]

/-- Two first calls for cashier 5: both look for the row, one puts it in. -/
def firstCalls (first second : String) : List (Move Nat (Env × SessionCall)) :=
  [[.start 0 (.plain, .setCashierStatus (some 5) (some first)),
    .start 1 (.plain, .setCashierStatus (some 5) (some second)), .next 0, .next 1],
   alone 0, alone 1].flatten

/-- The cashier goes offline first, and ends up online after having expired. -/
def returningMoves : List (Move Nat (Env × SessionCall)) :=
  [firstCalls "offline" "online", [.start 2 (.plain, .expireCashier (some 5))], alone 2,
   [.start 3 (.plain, .setCashierStatus (some 5) (some "online"))], alone 3].flatten

/-- Whether the script overwrites the status of a row it is about to lock. -/
def overwrites : LedgerScript Unit → Bool
  | .select (.cashierStatus _) next =>
      match next (some (.never .plain)) with
      | .write (.cashierStatus _) row _ => row.sessions.isEmpty
      | _ => false
  | _ => false

/-- Whether a step overwrites the status of a row that is online. -/
def overwritesOnline (taken : SessionWorld Nat × Move Nat (Env × SessionCall)) : Bool :=
  match taken.2 with
  | .next tx =>
      match taken.1.running tx with
      | some ((_, .setCashierStatus (some discordId) _), rest) =>
          overwrites rest && ((taken.1.rows (.cashierStatus discordId)).session id tx).any
            fun row => row.any fun row => row.status.status = .online
      | _ => false
  | _ => false

theorem overwritesOnline_of_overtaken {world : SessionWorld Nat}
    {move : Move Nat (Env × SessionCall)} (h : Overtaken world move) :
    overwritesOnline (world, move) = true := by
  obtain ⟨tx, env, discordId, pStatus, status, row, rfl, hrunning, hsession, honline⟩ := h
  simp only [overwritesOnline, hrunning, hsession]
  simp [overwriteStatus_eq, overwrites, CashierRow.never, honline]

theorem sessions_track_returning :
    SessionsTrack (sessionRun returningMoves).committed ∧
    openSessions 5 (sessionRun returningMoves).committed = 1 := by
  have hahead : ∀ taken ∈ steps (Concurrent.step sessionBody) sessionStart returningMoves,
      overwritesOnline taken = false := by
    decide +kernel
  have hdb : Migrated (sessionEntries.map Sigma.fst) (rowsOf sessionEntries) :=
    migrated_rowsOf sessionEntries (Option.some_ne_none _) (by simp [sessionEntries])
  have hempty : ∀ discordId, rowsOf sessionEntries (.cashierStatus discordId) = none := by
    intro discordId
    simp [sessionEntries, rowsOf]
  refine ⟨sessions_track hdb hempty returningMoves ?_, by decide +kernel⟩
  intro before move hmem hovertaken
  exact Bool.noConfusion ((hahead _ hmem).symm.trans (overwritesOnline_of_overtaken hovertaken))

/-- Two racing first calls leave an online cashier with two open sessions. -/
theorem sessions_opened_twice :
    (∀ tx ∈ [0, 1], ((sessionRun (firstCalls "online" "online")).running tx).isNone) ∧
    openSessions 5 (sessionRun (firstCalls "online" "online")).committed = 2 ∧
    statusOf 5 (sessionRun (firstCalls "online" "online")).committed = some .online ∧
    ¬ SessionsTrack (sessionRun (firstCalls "online" "online")).committed := by
  have hopen : openSessions 5 (sessionRun (firstCalls "online" "online")).committed = 2 := by
    decide +kernel
  have honline : statusOf 5 (sessionRun (firstCalls "online" "online")).committed =
      some .online := by
    decide +kernel
  refine ⟨by decide +kernel, hopen, honline, fun htrack => ?_⟩
  have hone := htrack 5
  rw [hopen, if_pos honline] at hone
  cases hone

end DeathRoll.Interleaved
