import DeathRoll.Audit.Interleaving
import Mathlib.Data.UInt
import Mathlib.Order.Bounds.Basic

/-! # Verifying the audit chain

What `core.verify_audit_chain` says of the logs that interleaved writers
produce, and of what somebody without the key makes of them: a produced log
passes in full, and a changed one is reported at its first broken row unless it
is a produced log cut short. Rows that were forged under negative ids are out of
the verifier's sight.
-/

namespace DeathRoll

open Relational

variable {env : Env} {key : Bytes}

/-! ## The verifier's pass -/

theorem verifyRows_brokenAtId (rows : List AuditRow) (prevHash : Option Bytes) (count : Nat)
    (lastVerified : Int) :
    (verifyRows env key rows prevHash count lastVerified).brokenAtId =
      ((auditChain env key).firstBroken prevHash rows).map AuditRow.id := by
  induction rows generalizing prevHash count lastVerified with
  | nil => rfl
  | cons row rest ih =>
      by_cases hrow : row.rowHash = env.rowHash key prevHash row.content
      · simp [verifyRows, HashChain.firstBroken, ← hrow, ih]
      · simp [verifyRows, HashChain.firstBroken, hrow, Ne.symm hrow]

theorem verifyRows_of_chained {rows : List AuditRow} {prevHash : Option Bytes}
    (hrows : (auditChain env key).Chained prevHash rows) (count : Nat) (lastVerified : Int) :
    verifyRows env key rows prevHash count lastVerified =
      ⟨count + rows.length, (rows.getLast?.map AuditRow.id).getD lastVerified, none⟩ := by
  induction rows generalizing prevHash count lastVerified with
  | nil => rfl
  | cons row rest ih =>
      obtain ⟨hrow, hrest⟩ := hrows
      simp only [auditChain_hash, auditChain_content, auditChain_digest] at hrow hrest
      rw [verifyRows, if_neg (not_ne_iff.mpr hrow.symm), ih hrest, List.length_cons,
        List.getLast?_cons]
      cases hlast : rest.getLast? <;> simp <;> omega

theorem mem_inIdOrder {log : List AuditRow} {row : AuditRow} : row ∈ inIdOrder log ↔ row ∈ log :=
  List.mem_insertionSort _

theorem inIdOrder_increasing (log : List AuditRow) :
    (inIdOrder log).Pairwise fun a b => a.id ≤ b.id :=
  List.pairwise_insertionSort _ _

theorem inIdOrder_of_increasing {log : List AuditRow}
    (hlog : log.Pairwise fun a b => a.id < b.id) : inIdOrder log = log :=
  (hlog.imp fun h => h.le).insertionSort_eq

/-- A pass from 0 over all rows checks a log without negative ids in id order. -/
theorem verifyAuditChain_zero (hkey : env.chainKey = .ok key) {log : List AuditRow}
    (hids : ∀ row ∈ log, 0 ≤ row.id) {pMaxRows : Nat} (hrows : log.length ≤ pMaxRows) :
    verifyAuditChain env log (some 0) pMaxRows =
      .ok (verifyRows env key (inIdOrder log) none 0 0) := by
  have hfilter : (inIdOrder log).filter (fun row => (0 : Int) ≤ row.id) = inIdOrder log := by
    rw [List.filter_eq_self]
    intro row hrow
    simpa using hids row (mem_inIdOrder.mp hrow)
  have htake : (inIdOrder log).take pMaxRows = inIdOrder log := by
    apply List.take_of_length_le
    rwa [inIdOrder, List.length_insertionSort]
  simp [verifyAuditChain, hkey, hfilter, htake, bind, Except.bind, pure, Except.pure]

/-! ## What is hashed -/

/-- The text hashed for a row, behind the previous hash or the zero block. -/
def Env.message (env : Env) (link : Option Bytes × AuditContent) : Bytes :=
  link.1.getD zeroBlock ++ env.jsonbText env.timeZone link.2

/-- The messages hashed in a pass over a log. -/
def Env.messages (env : Env) (key : Bytes) (log : List AuditRow) : List Bytes :=
  ((auditChain env key).links none (inIdOrder log)).map env.message

theorem rowHash_eq (prevHash : Option Bytes) (content : AuditContent) :
    env.rowHash key prevHash content = env.hmac (env.message (prevHash, content)) key := rfl

/-- What the chain takes from the two functions outside: HMACs are 32 bytes, no
two of the messages of the logs have the same one, no two of their rows have the
same text, and a text begins with a brace. -/
structure HashesApart (env : Env) (key : Bytes) (original tampered : List AuditRow) : Prop where
  hmac_length : ∀ message, (env.hmac message key).length = 32
  hmac_injOn : Set.InjOn (fun message => env.hmac message key)
    {message | message ∈ env.messages key original ∨ message ∈ env.messages key tampered}
  text_injOn : Set.InjOn (env.jsonbText env.timeZone)
    {content | ∃ row, (row ∈ original ∨ row ∈ tampered) ∧ content = row.content}
  text_brace : ∀ content, (env.jsonbText env.timeZone content).head? = some 0x7b

/-- The hash of a row or the start of the chain. -/
def IsHead (prevHash : Option Bytes) : Prop :=
  prevHash = none ∨ ∃ hash : Bytes, prevHash = some hash ∧ hash.length = 32

/-- A text behind the zero block is no text behind a hash. -/
theorem zeroBlock_append_ne {hash text text' : Bytes} (hlength : hash.length = 32)
    (hbrace : text'.head? = some 0x7b) : zeroBlock ++ text ≠ hash ++ text' := by
  intro heq
  have hsplit : zeroBlock = List.replicate 32 0 ++ List.replicate 32 0 := rfl
  rw [hsplit, List.append_assoc] at heq
  have htext := (List.append_inj heq (by rw [hlength, List.length_replicate])).2
  rw [← htext] at hbrace
  simp [List.replicate_succ] at hbrace

/-- The previous hash and the text can be read off a message. -/
theorem message_inj {link link' : Option Bytes × AuditContent} (hhead : IsHead link.1)
    (hhead' : IsHead link'.1)
    (hbrace : ∀ content, (env.jsonbText env.timeZone content).head? = some 0x7b)
    (heq : env.message link = env.message link') :
    link.1 = link'.1 ∧
      env.jsonbText env.timeZone link.2 = env.jsonbText env.timeZone link'.2 := by
  obtain ⟨prev, content⟩ := link
  obtain ⟨prev', content'⟩ := link'
  simp only [Env.message] at heq
  rcases hhead with rfl | ⟨hash, rfl, hlength⟩ <;> rcases hhead' with rfl | ⟨hash', rfl, hlength'⟩
  · exact ⟨rfl, List.append_cancel_left heq⟩
  · exact absurd heq (zeroBlock_append_ne hlength' (hbrace content'))
  · exact absurd heq.symm (zeroBlock_append_ne hlength (hbrace content))
  · obtain ⟨rfl, htext⟩ := List.append_inj heq (hlength.trans hlength'.symm)
    exact ⟨rfl, htext⟩

variable {original tampered : List AuditRow}

theorem isHead_of_chained {log : List AuditRow}
    (hlength : ∀ message, (env.hmac message key).length = 32)
    (hlog : (auditChain env key).Chained none log) {link : Option Bytes × AuditContent}
    (hlink : link ∈ (auditChain env key).links none log) : IsHead link.1 := by
  rcases (HashChain.mem_links hlink).1 with hnone | ⟨row, hrow, hhash⟩
  · exact .inl hnone
  · obtain ⟨source, -, hsource⟩ := hlog.exists_link hrow
    refine .inr ⟨row.rowHash, hhash, ?_⟩
    simp only [auditChain_hash, auditChain_digest] at hsource
    rw [hsource, rowHash_eq]
    exact hlength _

/-- On two chained logs the row hash tells links apart. -/
theorem HashesApart.separates (happart : HashesApart env key original tampered)
    (horiginal : (auditChain env key).Chained none (inIdOrder original))
    (htampered : (auditChain env key).Chained none (inIdOrder tampered)) :
    (auditChain env key).Separates
      {link | link ∈ (auditChain env key).links none (inIdOrder original) ∨
        link ∈ (auditChain env key).links none (inIdOrder tampered)} := by
  have hhead : ∀ link, link ∈ (auditChain env key).links none (inIdOrder original) ∨
      link ∈ (auditChain env key).links none (inIdOrder tampered) → IsHead link.1 := by
    rintro link (hlink | hlink)
    · exact isHead_of_chained happart.hmac_length horiginal hlink
    · exact isHead_of_chained happart.hmac_length htampered hlink
  have hcontent : ∀ link, link ∈ (auditChain env key).links none (inIdOrder original) ∨
      link ∈ (auditChain env key).links none (inIdOrder tampered) →
      ∃ row, (row ∈ original ∨ row ∈ tampered) ∧ link.2 = row.content := by
    rintro link (hlink | hlink)
    · obtain ⟨row, hrow, hsame⟩ := (HashChain.mem_links hlink).2
      exact ⟨row, .inl (mem_inIdOrder.mp hrow), hsame⟩
    · obtain ⟨row, hrow, hsame⟩ := (HashChain.mem_links hlink).2
      exact ⟨row, .inr (mem_inIdOrder.mp hrow), hsame⟩
  intro link hlink link' hlink' heq
  have hmessage := happart.hmac_injOn (hlink.imp List.mem_map_of_mem List.mem_map_of_mem)
    (hlink'.imp List.mem_map_of_mem List.mem_map_of_mem) heq
  obtain ⟨hprev, htext⟩ :=
    message_inj (hhead link hlink) (hhead link' hlink') happart.text_brace hmessage
  exact Prod.ext hprev (happart.text_injOn (hcontent link hlink) (hcontent link' hlink') htext)

/-! ## Detection -/

/-- Every hash in the tampered log is copied from the original, or it is not the
HMAC of a message that verification hashes. -/
def Unforged (env : Env) (key : Bytes) (original tampered : List AuditRow) : Prop :=
  ∀ row ∈ tampered, row.rowHash ∈ original.map AuditRow.rowHash ∨
    ∀ message ∈ env.messages key tampered, row.rowHash ≠ env.hmac message key

/-- The row with this id does not carry the hash of its predecessor and content. -/
def BrokenAt (env : Env) (key : Bytes) (log : List AuditRow) (id : Int) : Prop :=
  ∃ before row after, inIdOrder log = before ++ row :: after ∧ row.id = id ∧
    row.rowHash ≠ env.rowHash key (before.getLast?.map AuditRow.rowHash) row.content

/-- The audited columns and hashes of a log in id order. -/
def auditEntries (log : List AuditRow) : List (AuditContent × Bytes) :=
  (inIdOrder log).map fun row => (row.content, row.rowHash)

/-- A chained log that is not the original cut short holds a hash of its own. -/
theorem prefix_of_unforged (happart : HashesApart env key original tampered)
    (horiginal : (auditChain env key).Chained none (inIdOrder original))
    (htampered : (auditChain env key).Chained none (inIdOrder tampered))
    (hunforged : Unforged env key original tampered) :
    auditEntries tampered <+: auditEntries original := by
  apply HashChain.prefix_of_digests horiginal htampered (happart.separates horiginal htampered)
  intro row hrow
  obtain ⟨link, hlink, hhash⟩ := htampered.exists_link hrow
  rcases hunforged row (mem_inIdOrder.mp hrow) with hcopied | hfresh
  · obtain ⟨source, hsource, hsame⟩ := List.mem_map.mp hcopied
    exact List.mem_map.mpr ⟨source, mem_inIdOrder.mpr hsource, hsame⟩
  · exact absurd hhash (hfresh _ (List.mem_map_of_mem hlink))

/-- The first broken row has the smallest id of all broken rows. -/
theorem isLeast_brokenAt {log : List AuditRow} {row : AuditRow}
    (hbroken : (auditChain env key).firstBroken none (inIdOrder log) = some row) :
    IsLeast {id | BrokenAt env key log id} row.id := by
  have hhead : ∀ before : List AuditRow,
      (auditChain env key).headAfter none before = before.getLast?.map AuditRow.rowHash := by
    intro before
    simp [HashChain.headAfter, auditChain]
  constructor
  · obtain ⟨before, after, hsplit, -, hrow⟩ := HashChain.firstBroken_eq_some hbroken
    rw [hhead] at hrow
    exact ⟨before, row, after, hsplit, rfl, hrow⟩
  · rintro id ⟨before, other, after, hsplit, rfl, hother⟩
    rw [← hhead] at hother
    obtain ⟨front, rest, hrows, hmem⟩ := HashChain.firstBroken_first hbroken hsplit hother
    have hsorted := inIdOrder_increasing log
    rw [hrows, List.pairwise_append, List.pairwise_cons] at hsorted
    rcases List.mem_cons.mp hmem with rfl | hrest
    · exact le_rfl
    · exact hsorted.2.1.1 other hrest

/-- What `core.verify_audit_chain(0, n)` says of a log and of what becomes of it. -/
structure AuditChainEvident (env : Env) (key : Bytes) (original : List AuditRow) : Prop where
  complete : ∀ pMaxRows, original.length ≤ pMaxRows → ∃ lastId,
    verifyAuditChain env original (some 0) pMaxRows = .ok ⟨original.length, lastId, none⟩
  evident : ∀ tampered pMaxRows, HashesApart env key original tampered →
    Unforged env key original tampered → (∀ row ∈ tampered, 0 ≤ row.id) →
    tampered.length ≤ pMaxRows → ¬ auditEntries tampered <+: auditEntries original →
    ∃ count lastId brokenAtId,
      verifyAuditChain env tampered (some 0) pMaxRows = .ok ⟨count, lastId, some brokenAtId⟩ ∧
        IsLeast {id | BrokenAt env key tampered id} brokenAtId

theorem AuditStore.Sound.evident (hkey : env.chainKey = .ok key) {lastId : Int}
    {store : AuditStore} (hsound : store.Sound env key lastId) :
    AuditChainEvident env key store.auditLog := by
  have hchained := hsound.chained
  rw [← inIdOrder_of_increasing hsound.increasing] at hchained
  constructor
  · intro pMaxRows hrows
    have hids : ∀ row ∈ store.auditLog, 0 ≤ row.id := fun row hrow => (hsound.used row hrow).1.le
    rw [verifyAuditChain_zero hkey hids hrows, verifyRows_of_chained hchained]
    refine ⟨((inIdOrder store.auditLog).getLast?.map AuditRow.id).getD 0, ?_⟩
    rw [Nat.zero_add, inIdOrder, List.length_insertionSort]
  · intro tampered pMaxRows happart hunforged hids hrows hnot
    rw [verifyAuditChain_zero hkey hids hrows]
    cases hbroken : (auditChain env key).firstBroken none (inIdOrder tampered) with
    | none =>
        have htampered := HashChain.firstBroken_eq_none.mp hbroken
        exact absurd (prefix_of_unforged happart hchained htampered hunforged) hnot
    | some row =>
        have hid := @verifyRows_brokenAtId env key (inIdOrder tampered) none 0 0
        rw [hbroken, Option.map_some] at hid
        generalize verifyRows env key (inIdOrder tampered) none 0 0 = result at hid
        obtain ⟨count, verifiedId, brokenAtId⟩ := result
        subst hid
        exact ⟨count, verifiedId, row.id, rfl, isLeast_brokenAt hbroken⟩

/-- Every log that interleaved transactions produce passes in full, and whatever
else is made of it under ids that the verifier reads is reported. -/
theorem audit_chain_evident {τ : Type} [DecidableEq τ] (hkey : env.chainKey = .ok key)
    (statements : List (AuditStatement τ)) :
    AuditChainEvident env key (run (AuditWorld.step env key) .empty statements).auditLog :=
  (AuditWorld.sound_run statements).committed.evident hkey

/-- A session whose HMACs are checksums. -/
def Env.checksums : Env :=
  ⟨0, "UTC", some [1], fun message _ => message.sum :: List.replicate 31 0,
    fun _ content => [0x7b, UInt8.ofNat content.balanceAfter.toNat]⟩

def creditOf (amount : Int) : AuditContent where
  ts := 0
  actorType := .cashier
  actorId := 7
  targetId := 9
  action := "deposit_confirmed"
  amount := some amount
  balanceBefore := 0
  balanceAfter := amount
  reason := none
  refType := "deposit_ticket"
  refId := none
  botName := "dw"
  metadata := .obj []

/-- Two transactions write a row each while a third, which rolls back, is in between. -/
def auditRun : List (AuditStatement Nat) :=
  [.selectChainState 1, .selectChainState 2, .insertRow 1 (creditOf 1), .updateChainState 1,
   .commit 1, .selectChainState 2, .insertRow 2 (creditOf 2), .rollback 2, .selectChainState 3,
   .insertRow 3 (creditOf 3), .updateChainState 3, .commit 3]

def auditRunLog : List AuditRow :=
  (run (AuditWorld.step .checksums [1]) .empty auditRun).auditLog

/-- The amount of the last row is changed. -/
def auditRunChanged : List AuditRow :=
  auditRunLog.map fun row => if row.id = 3 then { row with content := creditOf 4 } else row

/-- A row under a negative id, with a hash copied from the log. -/
def auditRunForged : List AuditRow :=
  auditRunLog.head?.toList.map (fun row => { row with id := -1, content := creditOf 5 }) ++
    auditRunLog

/-- Checksums and texts tell the rows of these logs apart. -/
theorem auditRun_apart {tampered : List AuditRow} (amounts : List Int)
    (hcontents : tampered.map AuditRow.content = amounts.map creditOf)
    (hamounts : amounts ⊆ [1, 3, 4, 5])
    (hmessages : ∀ a ∈ Env.checksums.messages [1] auditRunLog ++
        Env.checksums.messages [1] tampered,
      ∀ b ∈ Env.checksums.messages [1] auditRunLog ++ Env.checksums.messages [1] tampered,
        a.sum = b.sum → a = b) : HashesApart .checksums [1] auditRunLog tampered := by
  have horiginal : auditRunLog.map AuditRow.content = [1, 3].map creditOf := rfl
  have hcredit : ∀ row, row ∈ auditRunLog ∨ row ∈ tampered →
      ∃ amount ∈ ([1, 3, 4, 5] : List Int), row.content = creditOf amount := by
    rintro row (hrow | hrow)
    · obtain ⟨amount, hamount, hsame⟩ :=
        List.mem_map.mp (horiginal ▸ List.mem_map_of_mem hrow : row.content ∈ _)
      exact ⟨amount, by simp at hamount ⊢; tauto, hsame.symm⟩
    · obtain ⟨amount, hamount, hsame⟩ :=
        List.mem_map.mp (hcontents ▸ List.mem_map_of_mem hrow : row.content ∈ _)
      exact ⟨amount, hamounts hamount, hsame.symm⟩
  have htexts : ∀ a ∈ ([1, 3, 4, 5] : List Int), ∀ b ∈ ([1, 3, 4, 5] : List Int),
      UInt8.ofNat a.toNat = UInt8.ofNat b.toNat → a = b := by
    decide
  constructor
  · exact fun _ => rfl
  · intro a ha b hb heq
    exact hmessages a (List.mem_append.mpr ha) b (List.mem_append.mpr hb) (List.cons.inj heq).1
  · rintro content ⟨row, hrow, rfl⟩ content' ⟨row', hrow', rfl⟩ heq
    obtain ⟨amount, hamount, hrow⟩ := hcredit row hrow
    obtain ⟨amount', hamount', hrow'⟩ := hcredit row' hrow'
    rw [hrow, hrow'] at heq ⊢
    rw [htexts amount hamount amount' hamount' (List.cons.inj (List.cons.inj heq).2).1]
  · exact fun _ => rfl

set_option maxRecDepth 4000 in
theorem audit_chain_evident_run :
    AuditChainEvident .checksums [1] auditRunLog ∧
      ∃ count lastId brokenAtId,
        verifyAuditChain .checksums auditRunChanged (some 0) 2 =
            .ok ⟨count, lastId, some brokenAtId⟩ ∧
          IsLeast {id | BrokenAt .checksums [1] auditRunChanged id} brokenAtId := by
  have hevident : AuditChainEvident .checksums [1] auditRunLog := audit_chain_evident rfl auditRun
  have hhashes : ∀ hash ∈ auditRunChanged.map AuditRow.rowHash,
      hash ∈ auditRunLog.map AuditRow.rowHash := by
    decide
  have hids : ∀ id ∈ auditRunChanged.map AuditRow.id, 0 ≤ id := by decide
  refine ⟨hevident, hevident.evident auditRunChanged 2 ?_ ?_ ?_ ?_ ?_⟩
  · exact auditRun_apart [1, 4] rfl (by decide) (by decide)
  · exact fun row hrow => .inl (hhashes _ (List.mem_map_of_mem hrow))
  · exact fun row hrow => hids _ (List.mem_map_of_mem hrow)
  · decide
  · intro hinitial
    exact absurd (hinitial.map fun entry => entry.1.balanceAfter) (by decide)

set_option maxRecDepth 4000 in
/-- A row forged under a negative id is not seen: the log is no prefix of the
produced one, its hashes all occur there, and the pass reports no break. -/
theorem forged_row_unseen :
    HashesApart .checksums [1] auditRunLog auditRunForged ∧
      Unforged .checksums [1] auditRunLog auditRunForged ∧
      ¬ auditEntries auditRunForged <+: auditEntries auditRunLog ∧
      verifyAuditChain .checksums auditRunForged (some 0) 3 = .ok ⟨2, 3, none⟩ := by
  have hhashes : ∀ hash ∈ auditRunForged.map AuditRow.rowHash,
      hash ∈ auditRunLog.map AuditRow.rowHash := by
    decide
  refine ⟨auditRun_apart [5, 1, 3] rfl (by decide) (by decide),
    fun row hrow => .inl (hhashes _ (List.mem_map_of_mem hrow)), fun hinitial => ?_, rfl⟩
  exact absurd (hinitial.map fun entry => entry.1.balanceAfter) (by decide)

end DeathRoll
