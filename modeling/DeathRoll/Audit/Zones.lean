import DeathRoll.Audit.Truncation
import Mathlib.Logic.Function.Basic

/-! # The audit log across time zones

`jsonb_build_object` renders a `TIMESTAMPTZ` in the `TimeZone` of the session,
which neither function of the chain fixes. Rows are written from sessions with
any setting and verified from one with any other; a pass accepts a row exactly
when the two settings have the same offset at the row's timestamp.
-/

namespace DeathRoll

open Relational

variable {env : Env} {key : Bytes}

/-- The same session under another `TimeZone`. -/
def Env.inZone (env : Env) (zone : String) : Env := { env with timeZone := zone }

/-- The audit log, and the `TimeZone` of the session that wrote the row under each id. -/
structure ZonedWorld (τ : Type) where
  world : AuditWorld τ
  zoneOf : Int → String

namespace ZonedWorld

variable {τ : Type}

def empty : ZonedWorld τ := ⟨.empty, fun _ => "UTC"⟩

/-- A statement from a session under a `TimeZone`. -/
def step [DecidableEq τ] (env : Env) (key : Bytes) (w : ZonedWorld τ) :
    String × AuditStatement τ → ZonedWorld τ
  | (zone, statement) =>
      { world := w.world.step (env.inZone zone) key statement
        zoneOf := match statement with
          | .insertRow _ _ => Function.update w.zoneOf (w.world.lastId + 1) zone
          | _ => w.zoneOf }

end ZonedWorld

/-- The audit log as a hash chain when each row has a `TimeZone` of its own. -/
@[simps] def zonedChain (env : Env) (key : Bytes) (zoneOf : Int → String) :
    HashChain AuditRow (String × AuditContent) Bytes where
  content row := (zoneOf row.id, row.content)
  hash := AuditRow.rowHash
  digest prevHash written := (env.inZone written.1).rowHash key prevHash written.2

/-! ## The invariant -/

/-- The log is chained under the zones of its rows, up to its head. -/
structure AuditStore.Zoned (env : Env) (key : Bytes) (zoneOf : Int → String) (lastId : Int)
    (store : AuditStore) : Prop where
  chained : (zonedChain env key zoneOf).Chained none store.auditLog
  head : store.lastRowHash = (zonedChain env key zoneOf).headAfter none store.auditLog
  increasing : store.auditLog.Pairwise fun a b => a.id < b.id
  used : ∀ row ∈ store.auditLog, 0 < row.id ∧ row.id ≤ lastId
  lastId_nonneg : 0 ≤ lastId

def AuditSession.Zoned (env : Env) (key : Bytes) (zoneOf : Int → String) (lastId : Int)
    (session : AuditSession) : Prop :=
  match session.phase with
  | .idle => session.store.Zoned env key zoneOf lastId
  | .selected vPrevHash =>
      session.store.Zoned env key zoneOf lastId ∧ vPrevHash = session.store.lastRowHash
  | .inserted vRowHash =>
      AuditStore.Zoned env key zoneOf lastId { session.store with lastRowHash := some vRowHash }

def ZonedWorld.Sound {τ : Type} (env : Env) (key : Bytes) (w : ZonedWorld τ) : Prop :=
  w.world.chainState.Keeps (AuditStore.Zoned env key w.zoneOf w.world.lastId)
    fun _ session => session.Zoned env key w.zoneOf w.world.lastId

section Invariant

variable {zoneOf zoneOf' : Int → String} {lastId lastId' : Int} {store : AuditStore}

/-- The zones of ids that are not used yet are nothing to the log. -/
theorem AuditStore.Zoned.mono (h : store.Zoned env key zoneOf lastId)
    (hzone : ∀ id ≤ lastId, zoneOf' id = zoneOf id) (hle : lastId ≤ lastId') :
    store.Zoned env key zoneOf' lastId' := by
  refine ⟨?_, h.head, h.increasing, fun row hrow => ?_, h.lastId_nonneg.trans hle⟩
  · refine h.chained.congr rfl rfl fun row hrow => ?_
    rw [zonedChain_content, zonedChain_content, hzone _ (h.used row hrow).2]
  · exact ⟨(h.used row hrow).1, (h.used row hrow).2.trans hle⟩

theorem AuditSession.Zoned.mono {session : AuditSession}
    (h : session.Zoned env key zoneOf lastId) (hzone : ∀ id ≤ lastId, zoneOf' id = zoneOf id)
    (hle : lastId ≤ lastId') : session.Zoned env key zoneOf' lastId' := by
  obtain ⟨store, phase⟩ := session
  cases phase with
  | idle => exact AuditStore.Zoned.mono h hzone hle
  | selected vPrevHash => exact ⟨h.1.mono hzone hle, h.2⟩
  | inserted vRowHash => exact AuditStore.Zoned.mono h hzone hle

/-- A row chained off the head under a new id and its zone keeps the log chained. -/
theorem AuditStore.Zoned.insertRow (h : store.Zoned env key zoneOf lastId) (zone : String)
    (content : AuditContent) :
    (store.insertWithChain (env.inZone zone) key (lastId + 1) content).Zoned env key
      (Function.update zoneOf (lastId + 1) zone) (lastId + 1) := by
  have hnonneg := h.lastId_nonneg
  have hlater : lastId ≤ lastId + 1 := by omega
  have hmono : store.Zoned env key (Function.update zoneOf (lastId + 1) zone) (lastId + 1) :=
    h.mono (fun id hid => Function.update_of_ne (by omega) _ _) hlater
  constructor
  · apply hmono.chained.concat
    rw [zonedChain_hash, zonedChain_digest, zonedChain_content, Function.update_self, ← hmono.head]
  · rw [AuditStore.insertWithChain, HashChain.headAfter_concat]
    rfl
  · rw [AuditStore.insertWithChain, List.pairwise_append]
    refine ⟨h.increasing, List.pairwise_singleton _ _, fun row hrow new hnew => ?_⟩
    have hused := (h.used row hrow).2
    obtain rfl := List.mem_singleton.mp hnew
    dsimp only
    omega
  · intro row hrow
    rcases List.mem_append.mp hrow with hold | hnew
    · exact hmono.used row hold
    · obtain rfl := List.mem_singleton.mp hnew
      dsimp only
      omega
  · omega

variable {τ : Type} [DecidableEq τ] {w : ZonedWorld τ}

theorem ZonedWorld.Sound.session (h : w.Sound env key) {tx : τ} {session : AuditSession}
    (hsession : w.world.session tx = some session) :
    session.Zoned env key w.zoneOf w.world.lastId := by
  have hstart : ∀ store : AuditStore, store.Zoned env key w.zoneOf w.world.lastId →
      AuditSession.Zoned env key w.zoneOf w.world.lastId ⟨store, .idle⟩ := fun _ hs => hs
  exact RowLock.Keeps.session h hstart hsession

theorem ZonedWorld.sound_step (h : w.Sound env key) (zone : String)
    (statement : AuditStatement τ) : (w.step env key (zone, statement)).Sound env key := by
  cases statement with
  | selectChainState tx =>
      simp only [ZonedWorld.step, AuditWorld.step]
      split
      next store hsession =>
        have hstore : store.Zoned env key w.zoneOf w.world.lastId := h.session hsession
        exact RowLock.Keeps.hold h ⟨hstore, rfl⟩
      next => exact h
  | insertRow tx content =>
      have hzone : ∀ id ≤ w.world.lastId,
          Function.update w.zoneOf (w.world.lastId + 1) zone id = w.zoneOf id :=
        fun id hid => Function.update_of_ne (by omega) _ _
      simp only [ZonedWorld.step, AuditWorld.step]
      split
      next store vPrevHash hsession =>
        have hselected : store.Zoned env key w.zoneOf w.world.lastId ∧
            vPrevHash = store.lastRowHash :=
          h.session hsession
        obtain ⟨hstore, rfl⟩ := hselected
        have hlater : w.world.lastId ≤ w.world.lastId + 1 := by omega
        have hmono := h.mono (fun _ hs => AuditStore.Zoned.mono hs hzone hlater)
          fun _ _ hp => AuditSession.Zoned.mono hp hzone hlater
        exact RowLock.Keeps.hold hmono (hstore.insertRow zone content)
      next =>
        exact h.mono (fun _ hs => AuditStore.Zoned.mono hs hzone le_rfl)
          fun _ _ hp => AuditSession.Zoned.mono hp hzone le_rfl
  | updateChainState tx =>
      simp only [ZonedWorld.step, AuditWorld.step]
      split
      next store vRowHash hsession =>
        have hstore := h.session hsession
        exact RowLock.Keeps.hold h hstore
      next => exact h
  | commit tx =>
      simp only [ZonedWorld.step, AuditWorld.step]
      split
      next store hsession => exact RowLock.Keeps.free (h.session hsession)
      next => exact h
  | rollback tx => exact RowLock.Keeps.release h tx

theorem ZonedWorld.sound_run (statements : List (String × AuditStatement τ)) :
    (run (ZonedWorld.step env key) .empty statements).Sound env key := by
  have hempty : (ZonedWorld.empty : ZonedWorld τ).Sound env key :=
    RowLock.Keeps.free ⟨trivial, rfl, List.Pairwise.nil, by simp [ZonedWorld.empty], le_rfl⟩
  have hstep : ∀ (w : ZonedWorld τ) (statement : String × AuditStatement τ), True →
      w.Sound env key → (w.step env key statement).Sound env key :=
    fun w statement _ h => sound_step h statement.1 statement.2
  exact run_invariant hstep hempty fun _ _ => trivial

end Invariant

/-! ## Verifying under another zone -/

/-- `jsonb_build_object` renders a timestamp with its offset in the zone: the texts of a row
under two zones are the same when their offsets at its timestamp are. -/
def RendersOffsets (env : Env) (offset : String → Timestamp → Int) : Prop :=
  ∀ zone zone' content,
    env.jsonbText zone content = env.jsonbText zone' content ↔
      offset zone content.ts = offset zone' content.ts

/-- What was hashed to write the rows of a log, and what is hashed to verify them. -/
def zonedMessages (env : Env) (key : Bytes) (zoneOf : Int → String) (reader : String)
    (log : List AuditRow) : Set Bytes :=
  {message | ∃ link ∈ (zonedChain env key zoneOf).links none log,
    message = (env.inZone link.2.1).message (link.1, link.2.2) ∨
      message = (env.inZone reader).message (link.1, link.2.2)}

/-- The rows that a pass checks in a log in id order. -/
def checkedRows (log : List AuditRow) (pFromId : Option Int) (pMaxRows : Nat) : List AuditRow :=
  (log.filter fun row => pFromId.getD 0 ≤ row.id).take pMaxRows

/-- The result of a pass that finds nothing wrong. -/
def untamperedVerdict (log : List AuditRow) (pFromId : Option Int) (pMaxRows : Nat) :
    VerifyResult :=
  ⟨(checkedRows log pFromId pMaxRows).length,
    ((checkedRows log pFromId pMaxRows).getLast?.map AuditRow.id).getD (pFromId.getD 0), none⟩

variable {offset : String → Timestamp → Int} {reader : String} {zoneOf : Int → String}

/-- A row has its hash under another zone when the offsets are the same. -/
theorem rowHash_inZone_iff (hrender : RendersOffsets env offset) {log before after : List AuditRow}
    {row : AuditRow} (hsplit : log = before ++ row :: after)
    (hinj : Set.InjOn (fun message => env.hmac message key)
      (zonedMessages env key zoneOf reader log)) :
    ((env.inZone (zoneOf row.id)).rowHash key
        ((zonedChain env key zoneOf).headAfter none before) row.content =
      (env.inZone reader).rowHash key ((zonedChain env key zoneOf).headAfter none before)
        row.content) ↔
      offset (zoneOf row.id) row.content.ts = offset reader row.content.ts := by
  have hlink : ((zonedChain env key zoneOf).headAfter none before,
      (zonedChain env key zoneOf).content row) ∈ (zonedChain env key zoneOf).links none log :=
    hsplit ▸ HashChain.mem_links_of_split
  rw [← hrender]
  constructor
  · intro hhash
    have hmessage := hinj ⟨_, hlink, .inl rfl⟩ ⟨_, hlink, .inr rfl⟩ hhash
    exact List.append_cancel_left hmessage
  · intro htext
    simp only [Env.rowHash, Env.inZone, htext]

theorem AuditStore.Zoned.verdict_iff {lastId : Int} {store : AuditStore}
    (h : store.Zoned env key zoneOf lastId) (hkey : env.chainKey = .ok key)
    (hrender : RendersOffsets env offset)
    (hinj : Set.InjOn (fun message => env.hmac message key)
      (zonedMessages env key zoneOf reader store.auditLog))
    (pFromId : Option Int) (pMaxRows : Nat) :
    verifyAuditChain (env.inZone reader) store.auditLog pFromId pMaxRows =
        .ok (untamperedVerdict store.auditLog pFromId pMaxRows) ↔
      ∀ row ∈ checkedRows store.auditLog pFromId pMaxRows,
        offset (zoneOf row.id) row.content.ts = offset reader row.content.ts := by
  have hkey' : (env.inZone reader).chainKey = .ok key := hkey
  have hwritten := chained_range h.chained h.increasing (pFromId.getD 0) pMaxRows
  rw [← checkedRows] at hwritten
  have hagree : (auditChain (env.inZone reader) key).Chained
      ((auditChain (env.inZone reader) key).headAfter none
        (store.auditLog.filter fun row => row.id < pFromId.getD 0))
      (checkedRows store.auditLog pFromId pMaxRows) ↔
      ∀ row ∈ checkedRows store.auditLog pFromId pMaxRows,
        offset (zoneOf row.id) row.content.ts = offset reader row.content.ts := by
    refine hwritten.iff_agree rfl fun before row after hsplit => ?_
    have hlog : store.auditLog =
        ((store.auditLog.filter fun row => row.id < pFromId.getD 0) ++ before) ++ row ::
          (after ++ (store.auditLog.filter fun row => pFromId.getD 0 ≤ row.id).drop
            pMaxRows) := by
      rw [← List.cons_append, List.append_assoc, ← List.append_assoc before, ← hsplit,
        checkedRows, List.take_append_drop, filter_append_filter h.increasing]
    have hrow := rowHash_inZone_iff hrender hlog hinj
    rwa [HashChain.headAfter_append] at hrow
  rw [verifyAuditChain_range h.increasing (fun row hrow => (h.used row hrow).1) hkey',
    ← checkedRows, Except.ok.injEq, ← hagree]
  constructor
  · intro hverdict
    have hnone := congrArg VerifyResult.brokenAtId hverdict
    rwa [verifyRows_brokenAtId, untamperedVerdict, Option.map_eq_none_iff,
      HashChain.firstBroken_eq_none] at hnone
  · intro hchained
    rw [verifyRows_of_chained hchained, Nat.zero_add]
    rfl

/-- Whatever the sessions wrote, a pass finds nothing wrong exactly when every row it checks
has the same offset in the zone it was written under and in the zone of the pass. -/
theorem verdict_iff_same_offset {τ : Type} [DecidableEq τ] (hkey : env.chainKey = .ok key)
    (hrender : RendersOffsets env offset) (statements : List (String × AuditStatement τ))
    (reader : String)
    (hinj : Set.InjOn (fun message => env.hmac message key)
      (zonedMessages env key (run (ZonedWorld.step env key) .empty statements).zoneOf reader
        (run (ZonedWorld.step env key) .empty statements).world.auditLog))
    (pFromId : Option Int) (pMaxRows : Nat) :
    let w := run (ZonedWorld.step env key) .empty statements
    verifyAuditChain (env.inZone reader) w.world.auditLog pFromId pMaxRows =
        .ok (untamperedVerdict w.world.auditLog pFromId pMaxRows) ↔
      ∀ row ∈ checkedRows w.world.auditLog pFromId pMaxRows,
        offset (w.zoneOf row.id) row.content.ts = offset reader row.content.ts := by
  have hsound : (run (ZonedWorld.step env key) .empty statements).Sound env key :=
    ZonedWorld.sound_run statements
  exact hsound.committed.verdict_iff hkey hrender hinj pFromId pMaxRows

/-- Seconds east of UTC, in the one zone of two that has any. -/
def saoPauloOffset (zone : String) (_ : Timestamp) : Int :=
  if zone = "America/Sao_Paulo" then -10800 else 0

/-- A session whose HMACs are checksums and whose texts show the sign of the offset. -/
def Env.zonedChecksums : Env :=
  ⟨0, "UTC", some [1], fun message _ => [message.sum],
    fun zone _ => [0x7b, if zone = "America/Sao_Paulo" then 0x2d else 0x2b]⟩

/-- One row is written from a session under UTC. -/
def zonedRun : List (String × AuditStatement Nat) :=
  [("UTC", .selectChainState 1), ("UTC", .insertRow 1 (creditOf 1)),
   ("UTC", .updateChainState 1), ("UTC", .commit 1)]

def zonedRunWorld : ZonedWorld Nat := run (ZonedWorld.step .zonedChecksums [1]) .empty zonedRun

set_option maxRecDepth 4000 in
theorem verdict_iff_same_offset_run :
    verifyAuditChain (Env.zonedChecksums.inZone "America/Sao_Paulo") zonedRunWorld.world.auditLog
        (some 0) 1000 ≠ .ok (untamperedVerdict zonedRunWorld.world.auditLog (some 0) 1000) := by
  have hrender : RendersOffsets .zonedChecksums saoPauloOffset := by
    intro zone zone' content
    by_cases hzone : zone = "America/Sao_Paulo" <;> by_cases hzone' : zone' = "America/Sao_Paulo" <;>
      simp [Env.zonedChecksums, saoPauloOffset, hzone, hzone']
  have hlinks : (zonedChain .zonedChecksums [1] zonedRunWorld.zoneOf).links none
      zonedRunWorld.world.auditLog = [(none, "UTC", creditOf 1)] := rfl
  have hinj : Set.InjOn (fun message => Env.zonedChecksums.hmac message [1])
      (zonedMessages .zonedChecksums [1] zonedRunWorld.zoneOf "America/Sao_Paulo"
        zonedRunWorld.world.auditLog) := by
    rintro a ⟨link, hlink, ha⟩ b ⟨link', hlink', hb⟩ heq
    rw [hlinks, List.mem_singleton] at hlink hlink'
    subst hlink hlink'
    rcases ha with rfl | rfl <;> rcases hb with rfl | rfl
    · rfl
    · exact absurd heq (by decide)
    · exact absurd heq (by decide)
    · rfl
  intro hverdict
  have hsame := (verdict_iff_same_offset rfl hrender zonedRun "America/Sao_Paulo" hinj (some 0)
    1000).mp hverdict
  have hfirst := hsame _ (List.mem_singleton.mpr rfl)
  exact absurd hfirst (by decide)

set_option maxRecDepth 4000 in
/-- The row that was written under UTC is reported as broken under another zone. -/
theorem verdict_depends_on_zone :
    verifyAuditChain (Env.zonedChecksums.inZone "UTC") zonedRunWorld.world.auditLog (some 0) 1000 =
        .ok ⟨1, 1, none⟩ ∧
      verifyAuditChain (Env.zonedChecksums.inZone "America/Sao_Paulo")
        zonedRunWorld.world.auditLog (some 0) 1000 = .ok ⟨0, 0, some 1⟩ :=
  ⟨rfl, rfl⟩

end DeathRoll
