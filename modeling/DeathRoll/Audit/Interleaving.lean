import DeathRoll.Core.AuditChain
import DeathRoll.Relational.HashChain
import DeathRoll.Relational.RowLock
import DeathRoll.Relational.Run
import Mathlib.Tactic.Simps.Basic

/-! # Writing the audit chain concurrently

`core.audit_log_insert_with_chain` statement by statement: lock the chain state
and read its head, insert the row under the next id, store the new head.
Transactions interleave between any two statements, call the function as often
as they like, and commit or roll back; ids that were handed out stay used.
-/

namespace DeathRoll

open Relational

/-- Where a transaction stands in `core.audit_log_insert_with_chain`. -/
inductive InsertPhase where
  | idle
  /-- After `SELECT last_row_hash INTO v_prev_hash ... FOR UPDATE`. -/
  | selected (vPrevHash : Option Bytes)
  /-- After the `INSERT` of the row with `v_row_hash`. -/
  | inserted (vRowHash : Bytes)

/-- The log as its writer sees it, and where the writer stands. -/
structure AuditSession where
  store : AuditStore
  phase : InsertPhase

/-- The log under the lock of `core.audit_chain_state`. -/
structure AuditWorld (τ : Type) where
  chainState : RowLock τ AuditStore AuditSession
  /-- The last id handed out by the sequence of `core.audit_log.id`. -/
  lastId : Int

inductive AuditStatement (τ : Type) where
  | selectChainState (tx : τ)
  | insertRow (tx : τ) (content : AuditContent)
  | updateChainState (tx : τ)
  | commit (tx : τ)
  | rollback (tx : τ)

namespace AuditWorld

variable {τ : Type}

/-- No row, no head, no id used. -/
def empty : AuditWorld τ := ⟨.free ⟨[], none⟩, 0⟩

/-- The committed log. -/
def auditLog (w : AuditWorld τ) : List AuditRow := w.chainState.committed.auditLog

variable [DecidableEq τ]

/-- What a transaction can go on with; `none` while it waits for another. -/
def session (w : AuditWorld τ) (tx : τ) : Option AuditSession :=
  w.chainState.session (fun store => ⟨store, .idle⟩) tx

/-- One statement. A statement that has to wait, or is not the next one of its
transaction, is no step. -/
def step (env : Env) (key : Bytes) (w : AuditWorld τ) : AuditStatement τ → AuditWorld τ
  | .selectChainState tx =>
      match w.session tx with
      | some ⟨store, .idle⟩ =>
          { w with chainState := w.chainState.hold tx ⟨store, .selected store.lastRowHash⟩ }
      | _ => w
  | .insertRow tx content =>
      match w.session tx with
      | some ⟨store, .selected vPrevHash⟩ =>
          let vRowHash := env.rowHash key vPrevHash content
          let row : AuditRow := ⟨w.lastId + 1, content, vPrevHash, vRowHash⟩
          { chainState := w.chainState.hold tx
              ⟨{ store with auditLog := store.auditLog ++ [row] }, .inserted vRowHash⟩
            lastId := w.lastId + 1 }
      | _ => w
  | .updateChainState tx =>
      match w.session tx with
      | some ⟨store, .inserted vRowHash⟩ =>
          { w with
            chainState := w.chainState.hold tx
              ⟨{ store with lastRowHash := some vRowHash }, .idle⟩ }
      | _ => w
  | .commit tx =>
      match w.session tx with
      | some ⟨store, .idle⟩ => { w with chainState := .free store }
      | _ => w
  | .rollback tx => { w with chainState := w.chainState.release tx }

/-- A call that is not interrupted chains one row off the head. -/
theorem call_insertWithChain (env : Env) (key : Bytes) (w : AuditWorld τ) {tx : τ}
    {store : AuditStore} (hsession : w.session tx = some ⟨store, .idle⟩)
    (content : AuditContent) :
    run (step env key) w [.selectChainState tx, .insertRow tx content, .updateChainState tx] =
      { chainState := w.chainState.hold tx
          ⟨store.insertWithChain env key (w.lastId + 1) content, .idle⟩
        lastId := w.lastId + 1 } := by
  unfold session at hsession
  simp [step, session, hsession, AuditStore.insertWithChain]

end AuditWorld

/-- The audit log as a hash chain under a key. -/
@[simps] def auditChain (env : Env) (key : Bytes) : HashChain AuditRow AuditContent Bytes where
  content := AuditRow.content
  hash := AuditRow.rowHash
  digest := env.rowHash key

/-! ## The invariant -/

/-- The log is chained up to its head, under increasing ids that have been used. -/
structure AuditStore.Sound (env : Env) (key : Bytes) (lastId : Int) (store : AuditStore) :
    Prop where
  chained : (auditChain env key).Chained none store.auditLog
  head : store.lastRowHash = (auditChain env key).headAfter none store.auditLog
  increasing : store.auditLog.Pairwise fun a b => a.id < b.id
  used : ∀ row ∈ store.auditLog, 0 < row.id ∧ row.id ≤ lastId
  lastId_nonneg : 0 ≤ lastId

/-- The same of a log in the hands of its writer: within a call the head is the
one that was read, or it is about to be the inserted row's. -/
def AuditSession.Sound (env : Env) (key : Bytes) (lastId : Int) (session : AuditSession) : Prop :=
  match session.phase with
  | .idle => session.store.Sound env key lastId
  | .selected vPrevHash =>
      session.store.Sound env key lastId ∧ vPrevHash = session.store.lastRowHash
  | .inserted vRowHash =>
      AuditStore.Sound env key lastId { session.store with lastRowHash := some vRowHash }

def AuditWorld.Sound {τ : Type} (env : Env) (key : Bytes) (w : AuditWorld τ) : Prop :=
  w.chainState.Keeps (AuditStore.Sound env key w.lastId)
    fun _ session => session.Sound env key w.lastId

section Invariant

variable {env : Env} {key : Bytes} {lastId lastId' : Int} {store : AuditStore}

theorem AuditStore.Sound.mono (h : store.Sound env key lastId) (hle : lastId ≤ lastId') :
    store.Sound env key lastId' :=
  ⟨h.chained, h.head, h.increasing, fun row hrow => ⟨(h.used row hrow).1,
    (h.used row hrow).2.trans hle⟩, h.lastId_nonneg.trans hle⟩

theorem AuditSession.Sound.mono {session : AuditSession} (h : session.Sound env key lastId)
    (hle : lastId ≤ lastId') : session.Sound env key lastId' := by
  obtain ⟨store, phase⟩ := session
  cases phase with
  | idle => exact AuditStore.Sound.mono h hle
  | selected vPrevHash => exact ⟨h.1.mono hle, h.2⟩
  | inserted vRowHash => exact AuditStore.Sound.mono h hle

/-- A row chained off the head under a new id keeps the log sound. -/
theorem AuditStore.Sound.insertWithChain (h : store.Sound env key lastId)
    (content : AuditContent) :
    (store.insertWithChain env key (lastId + 1) content).Sound env key (lastId + 1) := by
  have hnonneg := h.lastId_nonneg
  constructor
  · apply h.chained.concat
    change env.rowHash key store.lastRowHash content = env.rowHash key _ content
    rw [h.head]
  · rw [AuditStore.insertWithChain, HashChain.headAfter_concat]
    rfl
  · rw [AuditStore.insertWithChain, List.pairwise_append]
    refine ⟨h.increasing, List.pairwise_singleton _ _, fun row hrow new hnew => ?_⟩
    rw [List.mem_singleton] at hnew
    have hused := (h.used row hrow).2
    subst hnew
    dsimp only
    omega
  · intro row hrow
    rcases List.mem_append.mp hrow with hold | hnew
    · have hused := h.used row hold
      omega
    · rw [List.mem_singleton] at hnew
      subst hnew
      dsimp only
      omega
  · omega

variable {τ : Type} [DecidableEq τ] {w : AuditWorld τ}

theorem AuditWorld.Sound.session (h : w.Sound env key) {tx : τ} {session : AuditSession}
    (hsession : w.session tx = some session) : session.Sound env key w.lastId := by
  have hstart : ∀ store : AuditStore, store.Sound env key w.lastId →
      AuditSession.Sound env key w.lastId ⟨store, .idle⟩ := fun _ hs => hs
  exact RowLock.Keeps.session h hstart hsession

theorem AuditWorld.sound_step (h : w.Sound env key) (statement : AuditStatement τ) :
    (w.step env key statement).Sound env key := by
  cases statement with
  | selectChainState tx =>
      simp only [AuditWorld.step]
      split
      next store hsession =>
        have hstore : store.Sound env key w.lastId := h.session hsession
        exact RowLock.Keeps.hold h ⟨hstore, rfl⟩
      next => exact h
  | insertRow tx content =>
      simp only [AuditWorld.step]
      split
      next store vPrevHash hsession =>
        have hselected : store.Sound env key w.lastId ∧ vPrevHash = store.lastRowHash :=
          h.session hsession
        obtain ⟨hstore, rfl⟩ := hselected
        have hlater : w.lastId ≤ w.lastId + 1 := by omega
        have hmono := h.mono (fun _ hs => AuditStore.Sound.mono hs hlater)
          fun _ _ hp => AuditSession.Sound.mono hp hlater
        exact RowLock.Keeps.hold hmono (hstore.insertWithChain content)
      next => exact h
  | updateChainState tx =>
      simp only [AuditWorld.step]
      split
      next store vRowHash hsession =>
        have hstore := h.session hsession
        exact RowLock.Keeps.hold h hstore
      next => exact h
  | commit tx =>
      simp only [AuditWorld.step]
      split
      next store hsession => exact RowLock.Keeps.free (h.session hsession)
      next => exact h
  | rollback tx => exact RowLock.Keeps.release h tx

theorem AuditWorld.sound_run (statements : List (AuditStatement τ)) :
    (run (AuditWorld.step env key) .empty statements).Sound env key := by
  have hempty : (AuditWorld.empty : AuditWorld τ).Sound env key :=
    RowLock.Keeps.free ⟨trivial, rfl, List.Pairwise.nil, by simp, le_rfl⟩
  have hstep : ∀ (w : AuditWorld τ) (statement : AuditStatement τ), True → w.Sound env key →
      (w.step env key statement).Sound env key :=
    fun w statement _ h => sound_step h statement
  exact run_invariant hstep hempty fun _ _ => trivial

end Invariant

end DeathRoll
