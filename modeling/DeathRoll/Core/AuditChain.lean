import DeathRoll.Core.Errors
import Mathlib.Data.List.Sort

/-! # The audit log and its hash chain

`core.audit_log` with `core.audit_chain_state`, the chaining rule of
`core.audit_log_insert_with_chain` and the pass of `core.verify_audit_chain`.
The two functions compose the hashed text separately in the source; both
compositions list the same thirteen columns.
-/

namespace DeathRoll

/-- The thirteen columns of an audit row that enter its hash. -/
structure AuditContent where
  ts : Timestamp
  actorType : ActorType
  actorId : Int
  targetId : Int
  action : String
  amount : Option Int
  balanceBefore : Int
  balanceAfter : Int
  reason : Option String
  refType : String
  refId : Option String
  botName : String
  metadata : Json

/-- A row of `core.audit_log`. -/
structure AuditRow where
  id : Int
  content : AuditContent
  prevHash : Option Bytes
  rowHash : Bytes

/-- What a session brings to a call: its transaction time, its `TimeZone`, the
decoded `app.audit_chain_key` (absent when unset or not hex), and the two
functions computed outside the repository, `public.hmac(_, _, 'sha256')` and the
UTF-8 bytes of `jsonb_build_object(...)::text` under a time zone. -/
structure Env where
  now : Timestamp
  timeZone : String
  auditChainKey : Option Bytes
  hmac : Bytes → Bytes → Bytes
  jsonbText : String → AuditContent → Bytes

/-- `core.audit_log` in insertion order, with the head hash of `core.audit_chain_state`. -/
structure AuditStore where
  auditLog : List AuditRow
  lastRowHash : Option Bytes

/-- The block hashed in place of a `NULL` previous hash: 128 hex zeros. -/
def zeroBlock : Bytes := List.replicate 64 0

/-- The configured chain key, or the error both chain functions raise without one. -/
def Env.chainKey (env : Env) : Except DbError Bytes :=
  match env.auditChainKey with
  | none => .error .auditChainKeyNotConfigured
  | some [] => .error .auditChainKeyEmpty
  | some key => .ok key

/-- The hash of a row from the previous row's hash and its own content. -/
def Env.rowHash (env : Env) (key : Bytes) (prevHash : Option Bytes) (content : AuditContent) :
    Bytes :=
  env.hmac (prevHash.getD zeroBlock ++ env.jsonbText env.timeZone content) key

/-- Chain one row off the stored head and advance the head. -/
def AuditStore.insertWithChain (store : AuditStore) (env : Env) (key : Bytes) (id : Int)
    (content : AuditContent) : AuditStore where
  auditLog := store.auditLog ++
    [⟨id, content, store.lastRowHash, env.rowHash key store.lastRowHash content⟩]
  lastRowHash := some (env.rowHash key store.lastRowHash content)

/-! ## Verification -/

structure VerifyResult where
  checkedCount : Nat
  lastVerifiedId : Int
  brokenAtId : Option Int
deriving DecidableEq

/-- `ORDER BY id ASC`. -/
def inIdOrder (log : List AuditRow) : List AuditRow :=
  log.insertionSort fun a b => a.id ≤ b.id

/-- The loop of `core.verify_audit_chain`: stop at the first row whose stored
hash differs from the recomputed one. -/
def verifyRows (env : Env) (key : Bytes) :
    List AuditRow → Option Bytes → Nat → Int → VerifyResult
  | [], _, count, lastVerified => ⟨count, lastVerified, none⟩
  | row :: rest, prevHash, count, lastVerified =>
      if env.rowHash key prevHash row.content ≠ row.rowHash then
        ⟨count, lastVerified, some row.id⟩
      else verifyRows env key rest (some row.rowHash) (count + 1) row.id

/-- `core.verify_audit_chain(p_from_id, p_max_rows)`. -/
def verifyAuditChain (env : Env) (log : List AuditRow) (pFromId : Option Int) (pMaxRows : Nat) :
    Except DbError VerifyResult := do
  let vChainKey ← env.chainKey
  let fromId := pFromId.getD 0
  -- the hash of the last row before the range; NULL when there is none
  let vPrevHash :=
    if 0 < fromId then
      (((inIdOrder log).filter fun row => row.id < fromId).getLast?).map AuditRow.rowHash
    else none
  let range := ((inIdOrder log).filter fun row => fromId ≤ row.id).take pMaxRows
  return verifyRows env vChainKey range vPrevHash 0 fromId

end DeathRoll
