import DeathRoll.Audit.Tamper

/-! # Cutting the audit log short

The verifier worker and a full pass read the rows of the log and nothing else;
the head hash in `core.audit_chain_state` is there for the next insert. A log
that has lost its last rows is still chained, so no pass over it reports a
break, wherever it starts.
-/

namespace DeathRoll

open Relational

variable {env : Env} {key : Bytes}

/-- `_MAX_ROWS_PER_TICK`. -/
def maxRowsPerTick : Nat := 1000

/-- `_read_last_verified`: the persisted pointer, 0 when there is none. -/
def readLastVerified (pointer : Option Int) : Int := pointer.getD 0

/-- One `tick` of the verifier worker: its outcome, and the pointer it leaves in
`dw.global_config`, which advances on rows that checked out and not on a break. -/
def tick (env : Env) (store : AuditStore) (pointer : Option Int) :
    Except DbError VerifyResult × Option Int :=
  match verifyAuditChain env store.auditLog (some (readLastVerified pointer)) maxRowsPerTick with
  | .error e => (.error e, pointer)
  | .ok result =>
      if result.brokenAtId ≠ none then (.ok result, pointer)
      else if 0 < result.checkedCount then (.ok result, some result.lastVerifiedId)
      else (.ok result, pointer)

/-- The outcomes of so many ticks in a row. -/
def ticks (env : Env) (store : AuditStore) : Nat → Option Int → List (Except DbError VerifyResult)
  | 0, _ => []
  | count + 1, pointer =>
      (tick env store pointer).1 :: ticks env store count (tick env store pointer).2

/-- Some pass reported a break. -/
def ReportsBreak (outcomes : List (Except DbError VerifyResult)) : Prop :=
  ∃ result brokenAtId, .ok result ∈ outcomes ∧ result.brokenAtId = some brokenAtId

/-! ## Passes that start in the middle -/

/-- A log in id order is the part below an id and the part from it on. -/
theorem filter_append_filter {log : List AuditRow} (hlog : log.Pairwise fun a b => a.id < b.id)
    (fromId : Int) :
    (log.filter fun row => row.id < fromId) ++ (log.filter fun row => fromId ≤ row.id) = log := by
  induction log with
  | nil => rfl
  | cons row rest ih =>
      obtain ⟨hrow, hrest⟩ := List.pairwise_cons.mp hlog
      by_cases hbelow : row.id < fromId
      · simp [hbelow, not_le.mpr hbelow, ih hrest]
      · have hnone : rest.filter (fun other => other.id < fromId) = [] := by
          rw [List.filter_eq_nil_iff]
          intro other hother
          have hlater := hrow other hother
          simp only [decide_eq_true_eq]
          omega
        have hall : rest.filter (fun other => fromId ≤ other.id) = rest := by
          simpa [hnone] using ih hrest
        simp [hbelow, not_lt.mp hbelow, hnone, hall]

/-- A pass over a log in id order checks the rows from an id on, after the hash of the row
below. -/
theorem verifyAuditChain_range {log : List AuditRow}
    (hincreasing : log.Pairwise fun a b => a.id < b.id) (hpositive : ∀ row ∈ log, 0 < row.id)
    (hkey : env.chainKey = .ok key) (pFromId : Option Int) (pMaxRows : Nat) :
    verifyAuditChain env log pFromId pMaxRows =
      .ok (verifyRows env key ((log.filter fun row => pFromId.getD 0 ≤ row.id).take pMaxRows)
        ((auditChain env key).headAfter none (log.filter fun row => row.id < pFromId.getD 0)) 0
        (pFromId.getD 0)) := by
  -- without a positive start there is no row before the range
  have hprev : (if 0 < pFromId.getD 0 then
      ((log.filter fun row => row.id < pFromId.getD 0).getLast?).map AuditRow.rowHash
      else none) =
      (auditChain env key).headAfter none (log.filter fun row => row.id < pFromId.getD 0) := by
    split
    next => simp [HashChain.headAfter, auditChain]
    next hstart =>
      have hnone : log.filter (fun row => row.id < pFromId.getD 0) = [] := by
        rw [List.filter_eq_nil_iff]
        intro row hrow
        have hid := hpositive row hrow
        simp only [decide_eq_true_eq]
        omega
      rw [hnone, HashChain.headAfter_nil]
  simp only [verifyAuditChain, hkey, bind, Except.bind, pure, Except.pure,
    inIdOrder_of_increasing hincreasing]
  rw [hprev]

/-- The rows of such a pass are chained if the log is. -/
theorem chained_range {κ : Type} {chain : HashChain AuditRow κ Bytes} {log : List AuditRow}
    (hchained : chain.Chained none log) (hincreasing : log.Pairwise fun a b => a.id < b.id)
    (fromId : Int) (pMaxRows : Nat) :
    chain.Chained (chain.headAfter none (log.filter fun row => row.id < fromId))
      ((log.filter fun row => fromId ≤ row.id).take pMaxRows) := by
  rw [← filter_append_filter hincreasing fromId, HashChain.chained_append] at hchained
  exact hchained.2.initial (List.take_prefix _ _)

/-- A pass over a chained log reports no break, from wherever it starts. -/
theorem verifyAuditChain_of_chained {log : List AuditRow}
    (hchained : (auditChain env key).Chained none log)
    (hincreasing : log.Pairwise fun a b => a.id < b.id) (hpositive : ∀ row ∈ log, 0 < row.id)
    (hkey : env.chainKey = .ok key) (pFromId : Option Int) (pMaxRows : Nat) :
    ∃ result, verifyAuditChain env log pFromId pMaxRows = .ok result ∧
      result.brokenAtId = none := by
  refine ⟨_, verifyAuditChain_range hincreasing hpositive hkey pFromId pMaxRows, ?_⟩
  rw [verifyRows_of_chained (chained_range hchained hincreasing _ _)]

theorem tick_of_verified {store : AuditStore} {pointer : Option Int} {result : VerifyResult}
    (hpass : verifyAuditChain env store.auditLog (some (readLastVerified pointer)) maxRowsPerTick =
      .ok result) : (tick env store pointer).1 = .ok result := by
  rw [tick, hpass]
  dsimp only
  split_ifs <;> rfl

/-- Ticks that never see a break never report one. -/
theorem not_reportsBreak_ticks {store : AuditStore}
    (hpasses : ∀ fromId, ∃ result,
      verifyAuditChain env store.auditLog (some fromId) maxRowsPerTick = .ok result ∧
        result.brokenAtId = none) (count : Nat) (pointer : Option Int) :
    ¬ ReportsBreak (ticks env store count pointer) := by
  induction count generalizing pointer with
  | zero =>
      rintro ⟨result, brokenAtId, hmem, -⟩
      cases hmem
  | succ count ih =>
      rintro ⟨result, brokenAtId, hmem, hbroken⟩
      rw [ticks, List.mem_cons] at hmem
      rcases hmem with hfirst | hlater
      · obtain ⟨passed, hpass, hnone⟩ := hpasses (readLastVerified pointer)
        rw [tick_of_verified hpass, Except.ok.injEq] at hfirst
        rw [hfirst, hnone] at hbroken
        cases hbroken
      · exact ih _ ⟨result, brokenAtId, hlater, hbroken⟩

/-! ## The cut -/

/-- What was produced, cut anywhere with the chain state left as it was, passes
every sequence of ticks from every pointer and every pass from 0. -/
theorem truncation_unreported {τ : Type} [DecidableEq τ] (hkey : env.chainKey = .ok key)
    (statements : List (AuditStatement τ)) {kept removed : List AuditRow}
    (hcut : (run (AuditWorld.step env key) .empty statements).auditLog = kept ++ removed) :
    let store := (run (AuditWorld.step env key) .empty statements).chainState.committed
    (∀ count pointer, ¬ ReportsBreak (ticks env { store with auditLog := kept } count pointer)) ∧
      ∀ pMaxRows, ¬ ReportsBreak [verifyAuditChain env kept (some 0) pMaxRows] := by
  intro store
  have hsound := (@AuditWorld.sound_run env key _ _ statements).committed
  have hinitial : kept <+: store.auditLog := ⟨removed, hcut.symm⟩
  have hpasses := verifyAuditChain_of_chained (hsound.chained.initial hinitial)
    (hsound.increasing.sublist hinitial.sublist)
    (fun row hrow => (hsound.used row (hinitial.subset hrow)).1) hkey
  constructor
  · exact not_reportsBreak_ticks fun fromId => hpasses (some fromId) maxRowsPerTick
  · rintro pMaxRows ⟨result, brokenAtId, hmem, hbroken⟩
    obtain ⟨passed, hpass, hnone⟩ := hpasses (some 0) pMaxRows
    rw [hpass, List.mem_singleton, Except.ok.injEq] at hmem
    rw [hmem, hnone] at hbroken
    cases hbroken

/-- The first row of a run that wrote two, with the head of the second. -/
def auditRunCut : AuditStore :=
  { (run (AuditWorld.step .checksums [1]) .empty auditRun).chainState.committed with
    auditLog := auditRunLog.take 1 }

theorem truncation_unreported_run :
    (∀ count pointer, ¬ ReportsBreak (ticks .checksums auditRunCut count pointer)) ∧
      ∀ pMaxRows, ¬ ReportsBreak [verifyAuditChain .checksums auditRunCut.auditLog (some 0) pMaxRows] :=
  truncation_unreported rfl auditRun (List.take_append_drop 1 auditRunLog).symm

set_option maxRecDepth 4000 in
/-- The second of two rows is deleted; the head hash left behind is not the last
row's, and neither ticks from the start or from the deleted row nor a full pass
report a break. -/
theorem truncated_run :
    auditRunLog.drop 1 ≠ [] ∧
      auditRunCut.lastRowHash ≠ auditRunCut.auditLog.getLast?.map AuditRow.rowHash ∧
      ticks .checksums auditRunCut 2 none = [.ok ⟨1, 1, none⟩, .ok ⟨1, 1, none⟩] ∧
      ticks .checksums auditRunCut 2 (some 3) = [.ok ⟨0, 3, none⟩, .ok ⟨0, 3, none⟩] ∧
      verifyAuditChain .checksums auditRunCut.auditLog (some 0) 2 = .ok ⟨1, 1, none⟩ := by
  have hdeleted : auditRunLog.length = 2 := rfl
  have hhead : auditRunCut.lastRowHash ≠ auditRunCut.auditLog.getLast?.map AuditRow.rowHash := by
    decide
  refine ⟨fun hnil => ?_, hhead, rfl, rfl, rfl⟩
  rw [List.drop_eq_nil_iff, hdeleted] at hnil
  omega

end DeathRoll
