import DeathRoll.Interleaved.Accounts

/-! # What the audit log records

Every audit row records a change of its target's balance. The functions that are not about
bets record every change they make, under the locks that they read balances with, and they
leave bets alone.
-/

namespace DeathRoll.Interleaved

open Relational Script

/-! ## What is compared -/

/-- The sum of `balance_after - balance_before` over the audit rows of a target. -/
def auditedChange (targetId : Int) (rows : LedgerRows) : Int :=
  (((auditLog rows).filter fun content => content.targetId = targetId).map fun content =>
    content.balanceAfter - content.balanceBefore).sum

/-- What accounts hold beyond the changes that the audit log records for them. -/
def unrecorded (rows : LedgerRows) (discordId : Int) : Int :=
  balanceOf discordId rows - auditedChange discordId rows

/-- The rows of bets, and what is counted with them. -/
def betBooks (rows : LedgerRows) :=
  (fun id => rows (.bet id), fun discordId key => rows (.betKey discordId key),
    fun period => rows (.rafflePeriod period), fun discordId => wagered discordId rows,
    fun discordId => won discordId rows, fun id => placements id rows)

/-- What no function changes that is not about bets. -/
def books (rows : LedgerRows) := (betBooks rows, unrecorded rows)

/-- The script finds the audit log and leaves the books as they are. -/
abbrev KeepsBooks {α : Type} (x : LedgerScript α) : Prop :=
  x.KeepsFrom ledgerSchema {.auditLog} books

/-- A row that does not show in the books. -/
def LedgerKey.Unbooked : LedgerKey → Prop
  | .balance _ | .auditLog | .bet _ | .betKey _ _ | .rafflePeriod _ => False
  | _ => True

/-- Bets are left alone, and balances move by `moved` beyond what is recorded. -/
structure Booked (moved : Int → Int) (before after : LedgerRows) : Prop where
  bets : betBooks after = betBooks before
  unrecorded : unrecorded after = unrecorded before + moved

variable {known : Set LedgerKey} {rows before mid after : LedgerRows} {moved : Int → Int}

theorem keepsBets_of_betBooks (h : betBooks after = betBooks before) : KeepsBets before after := by
  simp only [betBooks, Prod.mk.injEq] at h
  obtain ⟨hbets, hkeys, hperiods, hwagered, hwon, hplacements⟩ := h
  exact ⟨congrFun hbets, fun discordId key => congrFun (congrFun hkeys discordId) key,
    congrFun hperiods, congrFun hwagered, congrFun hwon, congrFun hplacements⟩

theorem unrecorded_congr (hbalance : ∀ discordId, after (.balance discordId) =
    before (.balance discordId)) (hlog : after .auditLog = before .auditLog) :
    unrecorded after = unrecorded before := by
  funext discordId
  rw [unrecorded, unrecorded, auditedChange, auditedChange, auditLog, auditLog, hlog,
    balanceOf_congr (hbalance discordId)]

theorem unrecorded_balance {discordId : Int} {row : Balance}
    (hrow : rows (.balance discordId) = some row) (new : Balance) :
    unrecorded (Function.update rows (.balance discordId) (some new)) =
      unrecorded rows + Pi.single discordId (new.balance - row.balance) := by
  funext other
  have hlog : auditedChange other (Function.update rows (.balance discordId) (some new)) =
      auditedChange other rows := by
    rw [auditedChange, auditedChange, auditLog_update (by simp)]
  rw [unrecorded, hlog, Pi.add_apply, unrecorded]
  by_cases hother : other = discordId
  · subst hother
    simp only [balanceOf, Function.update_self, hrow, Option.map_some, Option.getD_some,
      Pi.single_eq_same]
    omega
  · rw [balanceOf_update_of_ne (by simp [Ne.symm hother]), Pi.single_eq_of_ne hother, add_zero]

/-- An audit row records its change of its target's balance. -/
theorem unrecorded_append (content : AuditContent) :
    unrecorded (Function.update rows .auditLog (some (auditLog rows ++ [content]))) =
      unrecorded rows +
        -Pi.single content.targetId (content.balanceAfter - content.balanceBefore) := by
  funext other
  have hlog : auditLog (Function.update rows .auditLog (some (auditLog rows ++ [content]))) =
      auditLog rows ++ [content] := by
    rw [auditLog, Function.update_self, Option.getD_some]
  rw [unrecorded, auditedChange, hlog, balanceOf_update_of_ne (by simp), List.filter_append,
    List.map_append, List.sum_append, Pi.add_apply, Pi.neg_apply, unrecorded, auditedChange]
  by_cases hother : content.targetId = other
  · subst hother
    simp
    omega
  · simp [hother, Ne.symm hother]

namespace Booked

theorem trans {moved₁ moved₂ : Int → Int} (h₁ : Booked moved₁ before mid)
    (h₂ : Booked moved₂ mid after) : Booked (moved₁ + moved₂) before after :=
  ⟨h₂.bets.trans h₁.bets, by rw [h₂.unrecorded, h₁.unrecorded, add_assoc]⟩

theorem keeps (h : Booked moved before after) (hmoved : moved = 0) : books after = books before :=
  Prod.ext h.bets (by rw [books, books, h.unrecorded, hmoved, add_zero])

theorem of_books (h : books after = books before) : Booked 0 before after :=
  ⟨congrArg Prod.fst h, (congrArg Prod.snd h).trans (add_zero _).symm⟩

/-- A row that is not in the books. -/
theorem skip {r : LedgerKey} (hr : r.Unbooked) (row : Option r.Row) :
    Booked 0 rows (Function.update rows r row) := by
  have hne : ∀ k : LedgerKey, ¬ k.Unbooked → k ≠ r := by
    rintro k hk rfl
    exact hk hr
  have hbalance : ∀ discordId, Function.update rows r row (.balance discordId) =
      rows (.balance discordId) := fun discordId => Function.update_of_ne (hne _ id) _ _
  have hlog : Function.update rows r row .auditLog = rows .auditLog :=
    Function.update_of_ne (hne _ id) _ _
  constructor
  · simp only [betBooks, Prod.mk.injEq]
    refine ⟨funext fun _ => ?_, funext₂ fun _ _ => ?_, funext fun _ => ?_,
      funext fun _ => wagered_congr (hbalance _), funext fun _ => won_congr (hbalance _),
      funext fun _ => placements_congr hlog⟩
    · exact Function.update_of_ne (hne _ id) _ _
    · exact Function.update_of_ne (hne _ id) _ _
    · exact Function.update_of_ne (hne _ id) _ _
  · rw [unrecorded_congr hbalance hlog, add_zero]

/-- A new balance of an account, its totals kept. -/
theorem balance {discordId : Int} {row new : Balance} (hrow : rows (.balance discordId) = some row)
    (hwagered : new.totalWagered = row.totalWagered) (hwon : new.totalWon = row.totalWon) :
    Booked (Pi.single discordId (new.balance - row.balance)) rows
      (Function.update rows (.balance discordId) (some new)) := by
  refine ⟨?_, unrecorded_balance hrow new⟩
  simp only [betBooks, Prod.mk.injEq]
  refine ⟨rfl, rfl, rfl, funext fun other => ?_, funext fun other => ?_, rfl⟩
  · by_cases hother : other = discordId
    · subst hother
      simp [wagered, hrow, hwagered]
    · exact wagered_congr (Function.update_of_ne (by simp [hother]) _ _)
  · by_cases hother : other = discordId
    · subst hother
      simp [won, hrow, hwon]
    · exact won_congr (Function.update_of_ne (by simp [hother]) _ _)

/-- An audit row that is about no bet. -/
theorem append {content : AuditContent} (htype : content.refType ≠ "luck_bet") :
    Booked (-Pi.single content.targetId (content.balanceAfter - content.balanceBefore)) rows
      (Function.update rows .auditLog (some (auditLog rows ++ [content]))) := by
  refine ⟨?_, unrecorded_append content⟩
  simp only [betBooks, Prod.mk.injEq]
  refine ⟨rfl, rfl, rfl, funext fun _ => wagered_congr rfl, funext fun _ => won_congr rfl,
    funext fun id => ?_⟩
  simp [placements, auditLog, htype]

end Booked

theorem books_update {r : LedgerKey} (hr : r.Unbooked) (row : Option r.Row) :
    books (Function.update rows r row) = books rows :=
  (Booked.skip hr row).keeps rfl

/-- The `ref_type` of a claim or a release is not that of a bet. -/
theorem ticketRef_ne (pTicketType : Option String) :
    (pTicketType.map fun ticketType => ticketType ++ "_ticket") ≠ some "luck_bet" := by
  intro htype
  obtain ⟨ticketType, -, htext⟩ := Option.map_eq_some_iff.mp htype
  have hsuffix : "_ticket".toList <:+ "luck_bet".toList := ⟨ticketType.toList, by simp [← htext]⟩
  exact absurd hsuffix (by decide)

/-- A new account is empty. -/
theorem books_newBalance {discordId : Int} (hnone : rows (.balance discordId) = none) :
    books (Function.update rows (.balance discordId) (some Balance.zero)) = books rows := by
  have hsame : ∀ (field : Balance → Int) (other : Int), field Balance.zero = 0 →
      ((Function.update rows (.balance discordId) (some Balance.zero) (.balance other)).map
        field).getD 0 = ((rows (.balance other)).map field).getD 0 := by
    intro field other hzero
    by_cases hother : other = discordId
    · subst hother
      rw [Function.update_self, hnone, Option.map_some, Option.getD_some, hzero]
      rfl
    · rw [Function.update_of_ne (by simp [hother])]
  refine Prod.ext ?_ (funext fun other => ?_)
  · simp only [books, betBooks, Prod.mk.injEq]
    exact ⟨rfl, rfl, rfl, funext fun other => hsame (fun row => row.totalWagered) other rfl,
      funext fun other => hsame (fun row => row.totalWon) other rfl, rfl⟩
  · change balanceOf other _ - auditedChange other rows = _
    rw [balanceOf, hsame (fun row => row.balance) other rfl]
    rfl

theorem books_insertBalance (discordId : Int) :
    books (Function.update rows (.balance discordId)
      (some ((rows (.balance discordId)).getD Balance.zero))) = books rows := by
  cases hrow : rows (.balance discordId) with
  | none => exact books_newBalance hrow
  | some row => rw [Option.getD_some, ← hrow, Function.update_eq_self]

/-! ## Statements -/

theorem insertUser_keepsBooks (discordId : Int) :
    KeepsBooks (insertUser discordId) :=
  keeps_bind (keeps_add rfl fun _ _ => books_update (r := .user discordId) trivial _)
    fun _ => keeps_pure ()

theorem insertBalance_keepsBooks (discordId : Int) :
    KeepsBooks (insertBalance discordId) :=
  keeps_bind (keeps_add rfl fun _ hnone => books_newBalance hnone) fun _ => keeps_pure ()

theorem addIndex_keepsBooks {r : LedgerKey} {row : r.Row} (hr : r.Unbooked)
    (hrefs : LedgerKey.Refs r row = ∅) (e : DbError) :
    KeepsBooks (addOrRaise r row e : LedgerScript Unit) :=
  keeps_addOrRaise e hrefs fun _ _ => books_update hr _

theorem upsertStats_keepsBooks (cashier : Int) (count : CashierStatsRow → CashierStatsRow) :
    KeepsBooks (upsertCashierStats cashier count) := by
  intro known rows _
  refine (post_upsertCashierStats cashier count fun known' new hgrow _ => ?_).grows
  exact books_update (r := .cashierStats cashier) trivial _


/-- A balance to work on, if the account is there. -/
theorem post_holdBalance {Q : Option Balance → Set LedgerKey → LedgerRows → Prop} (discordId : Int)
    (h : ∀ held known', known ⊆ known' → (∀ row, held = some row →
      rows (.balance discordId) = some row ∧ .balance discordId ∈ known') → Q held known' rows) :
    (lockBalance discordId).Post ledgerSchema Q known rows := by
  rw [post_lockBalance]
  refine ⟨fun _ => h none known subset_rfl (by simp), fun row hrow known' hgrow hknown => ?_⟩
  refine h (some row) known' hgrow fun _ hsome => ?_
  cases hsome
  exact ⟨hrow, hknown⟩

/-- A write to a balance that keeps the totals, if the account is there. -/
theorem post_moveBalance {Q : Unit → Set LedgerKey → LedgerRows → Prop} (discordId : Int)
    {assign : BalanceRow → BalanceRow}
    (hwagered : ∀ row, (assign row).totalWagered = row.totalWagered)
    (hwon : ∀ row, (assign row).totalWon = row.totalWon)
    (h : ∀ known' rows', known ⊆ known' → (∀ r, r ≠ .balance discordId → rows' r = rows r) →
      (∀ row : Balance, rows (.balance discordId) = some row → .balance discordId ∈ known →
        Booked (Pi.single discordId ((assign row.toBalanceRow).balance - row.balance)) rows rows') →
      Q () known' rows') :
    (updateBalance discordId assign).Post ledgerSchema Q known rows := by
  rw [post_updateBalance]
  constructor
  · exact fun hnone => h known rows subset_rfl (fun _ _ => rfl) fun row _ hknown =>
      (hnone hknown).elim
  · intro row hrow known' hgrow hknown new hnew
    refine h known' _ hgrow (fun r hr => Function.update_of_ne hr _ _) fun row' hrow' _ => ?_
    cases hrow.symm.trans hrow'
    have hmoves : Booked _ rows (Function.update rows (.balance discordId) (some new)) :=
      .balance hrow (by rw [hnew, hwagered]) (by rw [hnew, hwon])
    rwa [hnew] at hmoves

/-- An account that is opened unless it is there. -/
theorem post_openAccount {Q : Unit → Set LedgerKey → LedgerRows → Prop} (discordId : Int)
    (h : ∀ known' rows', known ⊆ known' →
      (∀ r, r ≠ .user discordId → r ≠ .balance discordId → rows' r = rows r) →
      Booked 0 rows rows' → Q () known' rows') :
    (insertUser discordId).Post ledgerSchema
      (fun _ known' rows' => (insertBalance discordId).Post ledgerSchema Q known' rows') known
      rows := by
  refine post_insertUser discordId fun known₁ hgrow₁ _ => ?_
  refine post_insertBalance discordId fun known₂ hgrow₂ _ => ?_
  refine h known₂ _ (hgrow₁.trans hgrow₂) (fun r huser hbalance => ?_) (.of_books ?_)
  · rw [Function.update_of_ne hbalance, Function.update_of_ne huser]
  · rw [books_insertBalance]
    exact books_update (r := .user discordId) trivial _

/-- An audit row of a function that is not about bets: its balances are not `NULL`. -/
theorem post_record {Q : Unit → Set LedgerKey → LedgerRows → Prop} (env : Env) (p : AuditParams)
    (hlog : .auditLog ∈ known) (htype : p.refType ≠ some "luck_bet")
    (h : ∀ known' rows' target before after, known ⊆ known' →
      (∀ r, r ≠ .auditLog → rows' r = rows r) → p.targetId = some target →
      p.balanceBefore = some before → p.balanceAfter = some after →
      Booked (-Pi.single target (after - before)) rows rows' → Q () known' rows') :
    (auditLogInsertWithChain env p).Post ledgerSchema Q known rows := by
  refine post_auditLogInsertWithChain env p hlog fun known' content hgrow hcontent _ => ?_
  obtain ⟨htarget, hbefore, hafter⟩ := auditContent_changes hcontent
  obtain ⟨-, hrefType, -⟩ := auditContent_fields hcontent
  refine h known' _ content.targetId content.balanceBefore content.balanceAfter hgrow
    (fun r hr => Function.update_of_ne hr _ _) htarget hbefore hafter (.append ?_)
  intro hbet
  exact htype (hrefType.trans (congrArg some hbet))

/-- An audit row that records no change. -/
theorem auditLogInsert_keepsBooks (env : Env) {p : AuditParams}
    (hsame : p.balanceAfter = p.balanceBefore) (htype : p.refType ≠ some "luck_bet") :
    KeepsBooks (auditLogInsertWithChain env p) := by
  intro known rows hlog
  refine post_record env p (hlog rfl) htype fun known' rows' target before after hgrow _ _ hbefore
    hafter hbooked => ⟨hgrow, hbooked.keeps ?_⟩
  rw [hafter, hbefore, Option.some.injEq] at hsame
  rw [hsame, sub_self, Pi.single_zero, neg_zero]

theorem openTicket_keepsBooks (env : Env) (table : String) (id : Int) (p : TicketParams)
    (vExpires : Timestamp) : KeepsBooks (openTicket env table id p vExpires) :=
  fun _ _ _ => post_openTicket env table id p vExpires fun _ _ => ⟨subset_rfl, rfl⟩

theorem insertDeposit_keepsBooks (uid : String) (ticket : Ticket) :
    KeepsBooks (insertDeposit uid ticket) := by
  refine keeps_bind (addIndex_keepsBooks (r := .ticketId .deposit ticket.id) trivial rfl _)
    fun _ => ?_
  refine keeps_bind (addIndex_keepsBooks (r := .deposit uid) trivial rfl _) fun _ => ?_
  exact addIndex_keepsBooks (r := .ticketThread .deposit ticket.threadId) trivial rfl _

theorem insertWithdraw_keepsBooks (uid : String) (ticket : Ticket) (fee : Int) :
    KeepsBooks (insertWithdraw uid ticket fee) := by
  unfold insertWithdraw
  split
  · refine keeps_bind (addIndex_keepsBooks (r := .ticketId .withdraw ticket.id) trivial rfl _)
      fun _ => ?_
    refine keeps_bind (addIndex_keepsBooks (r := .withdraw uid) trivial rfl _) fun _ => ?_
    refine keeps_bind
      (addIndex_keepsBooks (r := .ticketThread .withdraw ticket.threadId) trivial rfl _) fun _ => ?_
    exact keeps_bind (keeps_see _) fun user => keeps_raiseIf _ _
  · exact keeps_fail _

theorem checkedText_keepsBooks {α : Type} (column : String) (ofText : String → Option α)
    (value : Option String) : KeepsBooks (checkedText column ofText value) :=
  keeps_bind (keeps_require _ _) fun _ => keeps_require _ _

theorem upsertCharacter_keepsBooks (env : Env) (newId : Int) (key : CharacterKey)
    (faction : Faction) : KeepsBooks (upsertCharacter env newId key faction) := by
  refine keeps_bind (keeps_add rfl fun _ _ => books_update (r := .cashierCharacter key) trivial _)
    fun added => keeps_ite _ (keeps_pure _) (keeps_bind (keeps_lock _) fun held => ?_)
  cases held with
  | none => exact keeps_pure newId
  | some row =>
      exact keeps_bind (keeps_store rfl (fun _ => trivial) fun _ =>
        books_update (r := .cashierCharacter key) trivial _) fun _ => keeps_pure _

theorem updateUser_keepsBooks (discordId : Int) (new : User) :
    KeepsBooks (updateUser discordId new) := by
  refine keeps_bind (keeps_lock _) fun held => ?_
  cases held with
  | none => exact keeps_pure false
  | some row =>
      exact keeps_bind (keeps_store rfl (fun _ => trivial) fun _ =>
        books_update (r := .user discordId) trivial _) fun _ => keeps_pure true

theorem selectTicket_keepsBooks (pTicketType pTicketUid : Option String) :
    KeepsBooks (selectTicket pTicketType pTicketUid) :=
  fun _ _ _ => post_selectTicket ⟨subset_rfl, rfl⟩ fun _ _ _ _ hgrow _ _ => ⟨hgrow, rfl⟩

/-- The owner and the amount of a ticket stay. -/
theorem updateTicket_keepsBooks (pTicketType : Option String) (uid : String)
    {assign : Ticket → Ticket}
    (hkeeps : ∀ ticket, LedgerKey.Keeps (.deposit uid) ticket (assign ticket)) :
    KeepsBooks (updateTicket pTicketType uid assign) := by
  intro known rows _
  unfold updateTicket
  split
  · rw [post_bind, post_lockDeposit]
    refine ⟨fun _ => ⟨subset_rfl, rfl⟩, fun ticket hticket known' hgrow _ => ?_⟩
    exact post_updateDeposit hticket (hkeeps ticket)
      ⟨hgrow, books_update (r := .deposit uid) trivial _⟩
  · rw [post_bind, post_lockWithdraw]
    refine ⟨fun _ => ⟨subset_rfl, rfl⟩, fun ticket hticket known' hgrow _ => ?_⟩
    have hshared := hkeeps ticket.toTicket
    exact post_updateWithdraw hticket ⟨hshared.1, hshared.2, rfl⟩
      ⟨hgrow, books_update (r := .withdraw uid) trivial _⟩

theorem post_closeDispute {Q : Unit → Set LedgerKey → LedgerRows → Prop} {id : Int}
    {dispute : Dispute} (hdispute : rows (.dispute id) = some dispute) (env : Env)
    (status : DisputeStatus) (resolution : Option String) (resolvedBy : Option Int)
    (h : Q () known (Function.update rows (.dispute id)
      (some (dispute.close env.now status resolution resolvedBy)))) :
    (store (.dispute id) (dispute.close env.now status resolution resolvedBy) :
      LedgerScript Unit).Post ledgerSchema Q known rows := by
  rw [post_store_of_refs rfl]
  refine fun _ => ⟨fun old hold => ?_, h⟩
  cases hdispute.symm.trans hold
  exact ⟨rfl, rfl⟩

/-! ## Functions that move no gold -/

theorem createDepositTicket_keepsBooks (env : Env) (serials : TicketSerials)
    (config : TicketConfig) (p : TicketParams) :
    KeepsBooks (createDepositTicket env serials config p) := by
  refine keeps_bind (keeps_see _) fun banned => ?_
  refine keeps_bind (keeps_raiseIf _ _) fun _ => ?_
  refine keeps_bind (keeps_require _ _) fun vMin => ?_
  refine keeps_bind (keeps_require _ _) fun vMax => ?_
  refine keeps_bind (keeps_require _ _) fun vTtlS => ?_
  refine keeps_bind (keeps_raiseIf _ _) fun _ => ?_
  refine keeps_bind (keeps_raiseIf _ _) fun _ => ?_
  refine keeps_bind (keeps_raiseIf _ _) fun _ => ?_
  refine keeps_bind (openTicket_keepsBooks _ _ _ _ _) fun ticket => ?_
  refine keeps_bind (insertDeposit_keepsBooks _ _) fun _ => ?_
  refine keeps_bind (keeps_see _) fun balance => ?_
  refine keeps_bind (keeps_see _) fun target => ?_
  exact keeps_bind (auditLogInsert_keepsBooks env rfl (by simp)) fun _ => keeps_pure _

theorem claimTicket_keepsBooks (env : Env) (pTicketType pTicketUid : Option String)
    (pCashierId : Option Int) :
    KeepsBooks (claimTicket env pTicketType pTicketUid pCashierId) := by
  refine keeps_bind (keeps_raiseIf _ _) fun _ => ?_
  refine keeps_bind (selectTicket_keepsBooks _ _) fun found => ?_
  refine keeps_bind (keeps_require _ _) fun vTicket => ?_
  refine keeps_bind (keeps_raiseIf _ _) fun _ => ?_
  refine keeps_bind (keeps_see _) fun vMatch => ?_
  refine keeps_bind (keeps_raiseIf _ _) fun _ => ?_
  refine keeps_bind (keeps_require _ _) fun uid => ?_
  refine keeps_bind (updateTicket_keepsBooks _ _ fun _ => ⟨rfl, rfl⟩) fun _ => ?_
  refine keeps_bind (keeps_see _) fun balance => ?_
  refine keeps_bind (keeps_see _) fun target => ?_
  exact auditLogInsert_keepsBooks env rfl (ticketRef_ne pTicketType)

theorem releaseTicket_keepsBooks (env : Env) (pTicketType pTicketUid : Option String)
    (pActorId : Option Int) :
    KeepsBooks (releaseTicket env pTicketType pTicketUid pActorId) := by
  refine keeps_bind (keeps_raiseIf _ _) fun _ => ?_
  refine keeps_bind (selectTicket_keepsBooks _ _) fun found => ?_
  refine keeps_bind (keeps_require _ _) fun vTicket => ?_
  refine keeps_bind (keeps_raiseIf _ _) fun _ => ?_
  refine keeps_bind (keeps_raiseIf _ _) fun _ => ?_
  refine keeps_bind (keeps_require _ _) fun uid => ?_
  refine keeps_bind (updateTicket_keepsBooks _ _ fun _ => ⟨rfl, rfl⟩) fun _ => ?_
  refine keeps_bind (keeps_see _) fun balance => ?_
  refine keeps_bind (keeps_see _) fun target => ?_
  exact auditLogInsert_keepsBooks env rfl (ticketRef_ne pTicketType)

theorem cancelDeposit_keepsBooks (env : Env) (pTicketUid : Option String) (pActorId : Option Int)
    (pReason : Option String) :
    KeepsBooks (cancelDeposit env pTicketUid pActorId pReason) := by
  intro known rows hlog
  refine Post.grows ?_
  cases pTicketUid with
  | none => simp [cancelDeposit, selectDeposit, post_bind, post_pure, post_require]
  | some uid =>
      simp only [cancelDeposit, selectDeposit, post_bind, post_lockDeposit, post_require,
        post_raiseIf]
      refine ⟨by simp, ?_⟩
      rintro ticket hticket known₁ hgrow₁ _ _ ⟨⟩ hstatus _ ⟨⟩
      have hkeeps : LedgerKey.Keeps (.deposit uid) ticket (ticket.cancel env.now pReason) :=
        ⟨rfl, rfl⟩
      refine post_updateDeposit hticket hkeeps ?_
      refine post_see_of_forall _ fun balance known₂ hgrow₂ => ?_
      refine post_see_of_forall _ fun target known₃ hgrow₃ => ?_
      refine post_of_keepsFrom (auditLogInsert_keepsBooks env rfl (by simp))
        (hlog.trans (hgrow₁.trans (hgrow₂.trans hgrow₃))) fun _ _ _ _ hbooks => ?_
      exact hbooks.trans (books_update (r := .deposit uid) trivial _)

theorem rejectDispute_keepsBooks (env : Env) (pDisputeId : Option Int) (pReason : Option String)
    (pAdminId : Option Int) :
    KeepsBooks (rejectDispute env pDisputeId pReason pAdminId) := by
  intro known rows hlog
  refine Post.grows ?_
  cases pDisputeId with
  | none => simp [rejectDispute, selectDispute, post_bind, post_pure, post_require]
  | some id =>
      simp only [rejectDispute, selectDispute, post_bind, post_lockDispute, post_require,
        post_raiseIf]
      refine ⟨by simp, ?_⟩
      rintro dispute hdispute known₁ hgrow₁ _ _ ⟨⟩ hlive
      refine post_selectOwner _ _ fun known₂ owner hgrow₂ => ?_
      rintro _ ⟨⟩
      refine post_closeDispute hdispute env _ _ _ ?_
      refine post_of_keepsFrom (auditLogInsert_keepsBooks env rfl (by simp))
        (hlog.trans (hgrow₁.trans hgrow₂)) fun _ _ _ _ hbooks => ?_
      exact hbooks.trans (books_update (r := .dispute id) trivial _)

theorem openDispute_keepsBooks (env : Env) (nextId : Int) (pTicketType pTicketUid : Option String)
    (pOpenerId : Option Int) (pOpenerRole pReason : Option String) :
    KeepsBooks (openDispute env nextId pTicketType pTicketUid pOpenerId pOpenerRole pReason) := by
  refine keeps_bind (keeps_raiseIf _ _) fun _ => ?_
  refine keeps_bind (keeps_raiseIf _ _) fun _ => ?_
  refine keeps_bind (keeps_require _ _) fun ticketUid => ?_
  refine keeps_bind (keeps_see _) fun owner => ?_
  refine keeps_bind (keeps_require _ _) fun vUser => ?_
  refine keeps_bind (keeps_require _ _) fun type => ?_
  refine keeps_bind (keeps_require _ _) fun ticketType => ?_
  refine keeps_bind (keeps_require _ _) fun openerId => ?_
  refine keeps_bind (keeps_require _ _) fun role => ?_
  refine keeps_bind (keeps_require _ _) fun openerRole => ?_
  refine keeps_bind (keeps_require _ _) fun reason => ?_
  refine keeps_bind (keeps_bind (addIndex_keepsBooks (r := .dispute nextId) trivial rfl _) fun _ =>
    addIndex_keepsBooks (r := .disputeOf ticketType ticketUid) trivial rfl _) fun _ => ?_
  exact auditLogInsert_keepsBooks env rfl (by simp)

theorem updateCashier_keepsBooks (discordId : Int) (assign : CashierRow → CashierRow) :
    KeepsBooks (updateCashier discordId assign) := by
  refine keeps_bind (keeps_lock _) fun held => ?_
  cases held with
  | none => exact keeps_pure ()
  | some row =>
      exact keeps_store rfl (fun _ => trivial) fun _ =>
        books_update (r := .cashierStatus discordId) trivial _

theorem selectStatus_keepsBooks (pDiscordId : Option Int) :
    KeepsBooks (selectStatus pDiscordId) := by
  cases pDiscordId with
  | none => exact keeps_pure none
  | some discordId => exact keeps_bind (keeps_lock _) fun row => keeps_pure _

theorem finishStatus_keepsBooks (env : Env) (discordId : Int) (status : CashierState)
    (vOldStatus : Option CashierState) :
    KeepsBooks (finishStatus env discordId status vOldStatus) := by
  refine keeps_bind (keeps_ifDo _ (updateCashier_keepsBooks _ _)) fun _ => ?_
  refine keeps_bind (keeps_ifDo _ (updateCashier_keepsBooks _ _)) fun _ => ?_
  refine keeps_bind (keeps_see _) fun target => ?_
  exact auditLogInsert_keepsBooks env rfl (by simp)

theorem setCashierStatus_keepsBooks (env : Env) (pDiscordId : Option Int)
    (pStatus : Option String) : KeepsBooks (setCashierStatus env pDiscordId pStatus) := by
  refine keeps_bind (keeps_raiseIf _ _) fun _ => ?_
  refine keeps_bind (selectStatus_keepsBooks _) fun vOldStatus => ?_
  refine keeps_bind (keeps_require _ _) fun discordId => ?_
  refine keeps_bind (keeps_require _ _) fun text => ?_
  refine keeps_bind (keeps_require _ _) fun status => ?_
  refine keeps_bind (keeps_add rfl fun _ _ =>
    books_update (r := .cashierStatus discordId) trivial _) fun added => ?_
  have hfinish := finishStatus_keepsBooks env discordId status vOldStatus
  exact keeps_ite _ (keeps_bind (updateCashier_keepsBooks _ _) fun _ => hfinish) hfinish

theorem expireCashier_keepsBooks (env : Env) (pDiscordId : Option Int) :
    KeepsBooks (expireCashier env pDiscordId) := by
  refine keeps_bind (selectStatus_keepsBooks _) fun vOldStatus => ?_
  refine keeps_bind (keeps_raiseIf _ _) fun _ => ?_
  refine keeps_bind (keeps_require _ _) fun discordId => ?_
  refine keeps_bind (updateCashier_keepsBooks _ _) fun _ => ?_
  refine keeps_bind (updateCashier_keepsBooks _ _) fun _ => ?_
  exact auditLogInsert_keepsBooks env rfl (by simp)

theorem addCashierCharacter_keepsBooks (env : Env) (newId : Int) (pDiscordId : Option Int)
    (pChar pRealm pRegion pFaction : Option String) :
    KeepsBooks (addCashierCharacter env newId pDiscordId pChar pRealm pRegion pFaction) := by
  refine keeps_bind (keeps_raiseIf _ _) fun _ => ?_
  refine keeps_bind (keeps_raiseIf _ _) fun _ => ?_
  refine keeps_bind (keeps_require _ _) fun discordId => ?_
  refine keeps_bind (keeps_require _ _) fun charName => ?_
  refine keeps_bind (keeps_require _ _) fun realm => ?_
  refine keeps_bind (checkedText_keepsBooks _ _ _) fun region => ?_
  refine keeps_bind (checkedText_keepsBooks _ _ _) fun faction => ?_
  refine keeps_bind (upsertCharacter_keepsBooks _ _ _ _) fun id => ?_
  refine keeps_bind (keeps_see _) fun target => ?_
  exact keeps_bind (auditLogInsert_keepsBooks env rfl (by simp)) fun _ => keeps_pure id

theorem removeCashierCharacter_keepsBooks (env : Env) (pDiscordId : Option Int)
    (pChar pRealm pRegion : Option String) :
    KeepsBooks (removeCashierCharacter env pDiscordId pChar pRealm pRegion) := by
  refine keeps_bind (keeps_require _ _) fun key => ?_
  refine keeps_bind (keeps_lock _) fun held => ?_
  refine keeps_bind (keeps_require _ _) fun row => ?_
  refine keeps_bind (keeps_raiseIf _ _) fun _ => ?_
  refine keeps_bind (keeps_store rfl (fun _ => trivial) fun _ =>
    books_update (r := .cashierCharacter key) trivial _) fun _ => ?_
  refine keeps_bind (keeps_see _) fun target => ?_
  exact auditLogInsert_keepsBooks env rfl (by simp)

theorem banUser_keepsBooks (env : Env) (pUserId : Option Int) (pReason : Option String)
    (pAdminId : Option Int) : KeepsBooks (banUser env pUserId pReason pAdminId) := by
  refine keeps_bind (keeps_raiseIf _ _) fun _ => ?_
  refine keeps_bind (keeps_require _ _) fun userId => ?_
  refine keeps_bind (insertUser_keepsBooks _) fun _ => ?_
  refine keeps_bind (insertBalance_keepsBooks _) fun _ => ?_
  refine keeps_bind (keeps_lock _) fun held => ?_
  refine keeps_bind (updateUser_keepsBooks _ _) fun _ => ?_
  exact auditLogInsert_keepsBooks env rfl (by simp)

theorem unbanUser_keepsBooks (env : Env) (pUserId pAdminId : Option Int) :
    KeepsBooks (unbanUser env pUserId pAdminId) := by
  refine keeps_bind (keeps_require _ _) fun userId => ?_
  refine keeps_bind (updateUser_keepsBooks _ _) fun found => ?_
  refine keeps_bind (keeps_raiseIf _ _) fun _ => ?_
  exact auditLogInsert_keepsBooks env rfl (by simp)

theorem consumeToken_keepsBooks (call : RateCall) : KeepsBooks (consumeToken call) :=
  keeps_embed _ (fun _ _ => rfl) (fun _ _ _ => trivial)
    (fun _ key _ => books_update (r := .rateLimitEntry key) trivial _) _

theorem insertRaffleTickets_keepsBooks (ticket : RaffleTicket) (ids : List Int) :
    KeepsBooks (insertRaffleTickets ticket ids) := by
  induction ids with
  | nil => exact keeps_pure ()
  | cons id rest ih =>
      exact keeps_bind (addIndex_keepsBooks (r := .raffleTicket id) trivial rfl _) fun _ => ih

theorem grantRaffleTickets_keepsBooks (env : Env) (nextIds : ℕ → Int)
    (pDiscordId pPeriodId pTicketCount pBetId : Option Int) :
    KeepsBooks (grantRaffleTickets env nextIds pDiscordId pPeriodId pTicketCount pBetId) := by
  refine keeps_bind (keeps_raiseIf _ _) fun _ => ?_
  refine keeps_ite _ (keeps_pure _) ?_
  refine keeps_bind (keeps_see _) fun found => ?_
  refine keeps_bind (keeps_require _ _) fun vPeriodStatus => ?_
  refine keeps_bind (keeps_raiseIf _ _) fun _ => ?_
  refine keeps_ite _ (keeps_pure _) ?_
  refine keeps_bind (keeps_require _ _) fun periodId => ?_
  refine keeps_bind (keeps_require _ _) fun discordId => ?_
  refine keeps_bind (insertRaffleTickets_keepsBooks _ _) fun _ => ?_
  refine keeps_bind (keeps_see _) fun user => ?_
  refine keeps_bind (keeps_raiseIf _ _) fun _ => ?_
  refine keeps_bind (keeps_see _) fun bet => ?_
  exact keeps_bind (keeps_raiseIf _ _) fun _ => keeps_pure _

/-! ## Functions that move gold -/

theorem createWithdrawTicket_keepsBooks (env : Env) (serials : TicketSerials)
    (config : TicketConfig) (p : TicketParams) :
    KeepsBooks (createWithdrawTicket env serials config p) := by
  intro known rows hlog
  refine Post.grows ?_
  simp only [createWithdrawTicket, post_bind, post_raiseIf, post_require]
  intro vMin _ vMax _ vFeeBps _ vTtlS _ _ _ _ discordId hdiscordId
  refine post_lock_of_forall _ fun user known₁ hgrow₁ => ?_
  intro _ _ _
  refine post_holdBalance _ fun held known₂ hgrow₂ hheld => ?_
  intro _
  rw [post_nullableBigint]
  simp only [post_notNull]
  intro _ amount _
  refine post_moveBalance _ (fun _ => rfl) (fun _ => rfl) fun known₃ rows₁ hgrow₃ _ hmoved => ?_
  refine post_openTicket _ _ _ _ _ fun ticket _ fee _ => ?_
  have hlog₃ := hlog.trans (hgrow₁.trans (hgrow₂.trans hgrow₃))
  refine post_of_keepsFrom (insertWithdraw_keepsBooks _ _ _) hlog₃ fun _ known₄ rows₂ hgrow₄
    hbooks₂ => ?_
  refine post_record env _ (hgrow₄ (hlog₃ rfl)) (by simp) fun known₅ rows₃ target before after _ _
    htarget hbefore hafter hrecorded => ?_
  -- the account is there, or the balances of the audit row were NULL
  obtain ⟨row, rfl, rfl⟩ := Option.map_eq_some_iff.mp hbefore
  obtain ⟨hrow, hknown⟩ := hheld row rfl
  refine (((hmoved row hrow hknown).trans (.of_books hbooks₂)).trans hrecorded).keeps ?_
  obtain rfl := Option.some.inj (htarget.symm.trans hdiscordId)
  obtain rfl := Option.some.inj hafter
  simp

theorem confirmDeposit_keepsBooks (env : Env) (pTicketUid : Option String)
    (pCashierId : Option Int) : KeepsBooks (confirmDeposit env pTicketUid pCashierId) := by
  intro known rows hlog
  refine Post.grows ?_
  cases pTicketUid with
  | none => simp [confirmDeposit, selectDeposit, post_bind, post_pure, post_require]
  | some uid =>
      simp only [confirmDeposit, selectDeposit, post_bind, post_lockDeposit, post_require, post_ite,
        post_raiseIf, post_nullableBigint, post_notNull, post_pure]
      refine ⟨by simp, ?_⟩
      rintro ticket hticket known₁ hgrow₁ _ _ ⟨⟩
      refine ⟨fun _ => post_see_of_forall _ fun _ _ _ => rfl, ?_⟩
      rintro _ _ _ _ ⟨⟩
      refine post_openAccount _ fun known₂ rows₁ hgrow₂ hframe₁ hopened => ?_
      refine post_holdBalance _ fun held known₃ hgrow₃ hheld => ?_
      intro _
      refine post_moveBalance _ (fun _ => rfl) (fun _ => rfl) fun known₄ rows₂ hgrow₄ hframe₂
        hmoved => ?_
      have hticket₂ : rows₂ (.deposit uid) = some ticket := by
        rw [hframe₂ _ (by simp), hframe₁ _ (by simp) (by simp), hticket]
      have hkeeps : LedgerKey.Keeps (.deposit uid) ticket (ticket.confirm env.now) := ⟨rfl, rfl⟩
      refine post_updateDeposit hticket₂ hkeeps ?_
      have hlog₄ := hlog.trans (hgrow₁.trans (hgrow₂.trans (hgrow₃.trans hgrow₄)))
      refine post_record env _ (hlog₄ rfl) (by simp) fun known₅ rows₃ target before after hgrow₅ _
        htarget hbefore hafter hrecorded => ?_
      intro cashier _
      refine post_of_keepsFrom (upsertStats_keepsBooks _ _) (hlog₄.trans hgrow₅) fun _ _ rows₄ _
        hbooks₄ => ?_
      obtain ⟨row, rfl, rfl⟩ := Option.map_eq_some_iff.mp hbefore
      obtain ⟨hrow, hknown⟩ := hheld row rfl
      refine hbooks₄.trans ((((hopened.trans (hmoved row hrow hknown)).trans
        (.skip (r := .deposit uid) trivial _)).trans hrecorded).keeps ?_)
      obtain rfl := Option.some.inj htarget
      obtain rfl := Option.some.inj hafter
      simp

theorem confirmWithdraw_keepsBooks (env : Env) (pTicketUid : Option String)
    (pCashierId : Option Int) : KeepsBooks (confirmWithdraw env pTicketUid pCashierId) := by
  intro known rows hlog
  refine Post.grows ?_
  cases pTicketUid with
  | none => simp [confirmWithdraw, selectWithdraw, post_bind, post_pure, post_require]
  | some uid =>
      simp only [confirmWithdraw, selectWithdraw, post_bind, post_lockWithdraw, post_require,
        post_ite, post_raiseIf, post_notNull, post_pure]
      refine ⟨by simp, ?_⟩
      rintro ticket hticket known₁ hgrow₁ _ _ ⟨⟩
      refine ⟨fun _ => post_see_of_forall _ fun _ _ _ => rfl, ?_⟩
      rintro _ _ _
      refine post_holdBalance _ fun held known₂ hgrow₂ hheld => ?_
      rintro _ _ ⟨⟩
      refine post_moveBalance _ (fun _ => rfl) (fun _ => rfl) fun known₃ rows₁ hgrow₃ hframe₁
        hmoved₁ => ?_
      refine post_holdBalance _ fun treasury known₄ hgrow₄ htreasury => ?_
      refine post_moveBalance _ (fun _ => rfl) (fun _ => rfl) fun known₅ rows₂ hgrow₅ hframe₂
        hmoved₂ => ?_
      have hticket₂ : rows₂ (.withdraw uid) = some ticket := by
        rw [hframe₂ _ (by simp), hframe₁ _ (by simp), hticket]
      refine post_updateWithdraw hticket₂ ⟨rfl, rfl, rfl⟩ ?_
      have hlog₅ := hlog.trans
        (hgrow₁.trans (hgrow₂.trans (hgrow₃.trans (hgrow₄.trans hgrow₅))))
      refine post_record env _ (hlog₅ rfl) (by simp) fun known₆ rows₃ target before after hgrow₆ _
        htarget hbefore hafter hrecorded => ?_
      refine post_record env _ (hgrow₆ (hlog₅ rfl)) (by simp) fun known₇ rows₄ target' before'
        after' hgrow₇ _ htarget' hbefore' hafter' hrecorded' => ?_
      intro cashier _
      refine post_of_keepsFrom (upsertStats_keepsBooks _ _) (hlog₅.trans (hgrow₆.trans hgrow₇))
        fun _ _ rows₅ _ hbooks₅ => ?_
      obtain ⟨row, rfl, rfl⟩ := Option.map_eq_some_iff.mp hbefore
      obtain ⟨row', rfl, rfl⟩ := Option.map_eq_some_iff.mp hbefore'
      obtain ⟨hrow, hknown⟩ := hheld row rfl
      obtain ⟨hrow', hknown'⟩ := htreasury row' rfl
      refine hbooks₅.trans (((((hmoved₁ row hrow hknown).trans (hmoved₂ row' hrow' hknown')).trans
        (.skip (r := .withdraw uid) trivial _)).trans (hrecorded.trans hrecorded')).keeps ?_)
      obtain rfl := Option.some.inj hafter
      obtain rfl := Option.some.inj htarget'
      obtain rfl := Option.some.inj hafter'
      simp

theorem cancelWithdraw_keepsBooks (env : Env) (pTicketUid : Option String)
    (pActorId : Option Int) (pReason : Option String) :
    KeepsBooks (cancelWithdraw env pTicketUid pActorId pReason) := by
  intro known rows hlog
  refine Post.grows ?_
  cases pTicketUid with
  | none => simp [cancelWithdraw, selectWithdraw, post_bind, post_pure, post_require]
  | some uid =>
      simp only [cancelWithdraw, selectWithdraw, post_bind, post_lockWithdraw, post_require,
        post_raiseIf, post_nullableBigint, post_pure]
      refine ⟨by simp, ?_⟩
      rintro ticket hticket known₁ hgrow₁ _ _ ⟨⟩ _
      refine post_holdBalance _ fun held known₂ hgrow₂ hheld => ?_
      rintro _ _ ⟨⟩ _
      refine post_moveBalance _ (fun _ => rfl) (fun _ => rfl) fun known₃ rows₁ hgrow₃ hframe₁
        hmoved => ?_
      have hticket₁ : rows₁ (.withdraw uid) = some ticket := by
        rw [hframe₁ _ (by simp), hticket]
      refine post_updateWithdraw hticket₁ ⟨rfl, rfl, rfl⟩ ?_
      have hlog₃ := hlog.trans (hgrow₁.trans (hgrow₂.trans hgrow₃))
      refine post_record env _ (hlog₃ rfl) (by simp) fun known₄ rows₂ target before after hgrow₄ _
        htarget hbefore hafter hrecorded => ?_
      refine post_of_keepsFrom (keeps_ifDo _ (upsertStats_keepsBooks _ _)) (hlog₃.trans hgrow₄)
        fun _ _ rows₃ _ hbooks₃ => ?_
      obtain ⟨row, rfl, rfl⟩ := Option.map_eq_some_iff.mp hbefore
      obtain ⟨hrow, hknown⟩ := hheld row rfl
      refine hbooks₃.trans ((((hmoved row hrow hknown).trans
        (.skip (r := .withdraw uid) trivial _)).trans hrecorded).keeps ?_)
      obtain rfl := Option.some.inj htarget
      obtain rfl := Option.some.inj hafter
      simp

theorem treasurySweep_keepsBooks (env : Env) (pAmount pAdminId : Option Int)
    (pReason : Option String) : KeepsBooks (treasurySweep env pAmount pAdminId pReason) := by
  intro known rows hlog
  refine Post.grows ?_
  simp only [treasurySweep, post_bind, post_require, post_raiseIf, post_pure]
  intro amount _ _
  refine post_holdBalance _ fun held known₁ hgrow₁ hheld => ?_
  rintro treasury rfl _
  refine post_moveBalance _ (fun _ => rfl) (fun _ => rfl) fun known₂ rows₁ hgrow₂ _ hmoved => ?_
  refine post_record env _ (hgrow₂ (hgrow₁ (hlog rfl))) (by simp) fun known₃ rows₂ target before
    after _ _ htarget hbefore hafter hrecorded => ?_
  obtain ⟨hrow, hknown⟩ := hheld treasury rfl
  refine ((hmoved treasury hrow hknown).trans hrecorded).keeps ?_
  obtain rfl := Option.some.inj htarget
  obtain rfl := Option.some.inj hbefore
  obtain rfl := Option.some.inj hafter
  simp

theorem treasuryWithdrawToUser_keepsBooks (env : Env) (pAmount pTargetUser pAdminId : Option Int)
    (pReason : Option String) :
    KeepsBooks (treasuryWithdrawToUser env pAmount pTargetUser pAdminId pReason) := by
  intro known rows hlog
  refine Post.grows ?_
  simp only [treasuryWithdrawToUser, post_bind, post_require, post_raiseIf, post_notNull,
    post_nullableBigint]
  intro amount _ _ hself
  refine post_holdBalance _ fun held known₁ hgrow₁ hheld => ?_
  rintro treasury rfl _ target htarget
  have hne : LedgerKey.balance 0 ≠ .balance target := by
    rintro hsame
    obtain rfl := LedgerKey.balance.inj hsame
    exact hself ⟨0, htarget, rfl⟩
  refine post_openAccount _ fun known₂ rows₁ hgrow₂ hframe₁ hopened => ?_
  refine post_holdBalance _ fun user known₃ hgrow₃ huser => ?_
  intro _
  refine post_moveBalance _ (fun _ => rfl) (fun _ => rfl) fun known₄ rows₂ hgrow₄ hframe₂
    hdebited => ?_
  refine post_moveBalance _ (fun _ => rfl) (fun _ => rfl) fun known₅ rows₃ hgrow₅ _
    hcredited => ?_
  have hlog₅ := hlog.trans (hgrow₁.trans (hgrow₂.trans (hgrow₃.trans (hgrow₄.trans hgrow₅))))
  refine post_record env _ (hlog₅ rfl) (by simp) fun known₆ rows₄ target₁ before₁ after₁ hgrow₆ _
    htarget₁ hbefore₁ hafter₁ hrecorded₁ => ?_
  refine post_record env _ (hgrow₆ (hlog₅ rfl)) (by simp) fun known₇ rows₅ target₂ before₂ after₂
    _ _ htarget₂ hbefore₂ hafter₂ hrecorded₂ => ?_
  obtain ⟨hrow, hknown⟩ := hheld treasury rfl
  obtain ⟨row, rfl, rfl⟩ := Option.map_eq_some_iff.mp hbefore₂
  obtain ⟨hrow₁, hknown₃⟩ := huser row rfl
  have hrow₀ : rows₁ (.balance 0) = some treasury := (hframe₁ _ (by simp) hne).trans hrow
  have hrow₂ : rows₂ (.balance target) = some row := (hframe₂ _ hne.symm).trans hrow₁
  refine (((hopened.trans (hdebited treasury hrow₀ (hgrow₃ (hgrow₂ hknown)))).trans
    (hcredited row hrow₂ (hgrow₄ hknown₃))).trans (hrecorded₁.trans hrecorded₂)).keeps ?_
  obtain rfl := Option.some.inj htarget₁
  obtain rfl := Option.some.inj hbefore₁
  obtain rfl := Option.some.inj hafter₁
  obtain rfl := Option.some.inj htarget₂
  obtain rfl := Option.some.inj hafter₂
  simp only [Option.map_some, Option.getD_some, sub_sub_cancel_left, add_sub_cancel_left]
  abel

theorem payRefund_keepsBooks (env : Env) (vDispute : Dispute) (vUser pDisputeId : Option Int)
    (pAction : Option String) (pAmount pResolvedBy : Option Int) :
    KeepsBooks (payRefund env vDispute vUser pDisputeId pAction pAmount pResolvedBy) := by
  refine keeps_ite _ ?_ (keeps_ifDo _ ?_)
  · refine keeps_bind (keeps_require _ _) fun amount => ?_
    refine keeps_bind (keeps_raiseIf _ _) fun _ => ?_
    exact treasuryWithdrawToUser_keepsBooks _ _ _ _ _
  · refine keeps_bind (keeps_raiseIf _ _) fun _ => ?_
    refine keeps_bind (keeps_see _) fun vAmount => ?_
    exact treasuryWithdrawToUser_keepsBooks _ _ _ _ _

theorem resolveDispute_keepsBooks (env : Env) (pDisputeId : Option Int) (pAction : Option String)
    (pAmount pResolvedBy : Option Int) :
    KeepsBooks (resolveDispute env pDisputeId pAction pAmount pResolvedBy) := by
  intro known rows hlog
  refine Post.grows ?_
  cases pDisputeId with
  | none => simp [resolveDispute, selectDispute, post_bind, post_pure, post_require]
  | some id =>
      simp only [resolveDispute, selectDispute, post_bind, post_lockDispute, post_require,
        post_raiseIf]
      refine ⟨by simp, ?_⟩
      rintro dispute hdispute known₁ hgrow₁ _ _ ⟨⟩ hlive hadmitted
      refine post_selectOwner _ _ fun known₂ owner hgrow₂ => ?_
      have hlog₂ := hlog.trans (hgrow₁.trans hgrow₂)
      have hpaid := (payRefund_keepsBooks env dispute owner (some id) pAction pAmount pResolvedBy
        known₂ rows hlog₂).and (post_payRefund (Q := fun _ _ after => AccountsOnly rows after) env
          dispute owner (some id) pAction pAmount pResolvedBy (hlog₂ rfl)
          fun _ _ _ haccounts _ => haccounts)
      refine hpaid.mono fun _ known₃ rows₁ hpaid => ?_
      rintro _ ⟨⟩
      have hdispute₁ : rows₁ (.dispute id) = some dispute := by
        rw [hpaid.2 _ (by simp) (by simp) (by simp), hdispute]
      refine post_closeDispute hdispute₁ env _ _ _ ?_
      refine post_of_keepsFrom (auditLogInsert_keepsBooks env rfl (by simp))
        (hlog₂.trans hpaid.1.1) fun _ _ _ _ hbooks => ?_
      exact hbooks.trans ((books_update (r := .dispute id) trivial _).trans hpaid.1.2)

/-! ## All of them -/

theorem otherBody_keepsBooks (env : Env) (call : OtherCall) :
    KeepsBooks (otherBody env call) := by
  cases call with
  | ticket call =>
      cases call with
      | createDepositTicket serials config params =>
          exact keeps_bind (createDepositTicket_keepsBooks _ _ _ _) fun _ => keeps_pure ()
      | createWithdrawTicket serials config params =>
          exact keeps_bind (createWithdrawTicket_keepsBooks _ _ _ _) fun _ => keeps_pure ()
      | claimTicket => exact claimTicket_keepsBooks _ _ _ _
      | releaseTicket => exact releaseTicket_keepsBooks _ _ _ _
      | confirmDeposit =>
          exact keeps_bind (confirmDeposit_keepsBooks _ _ _) fun _ => keeps_pure ()
      | cancelDeposit => exact cancelDeposit_keepsBooks _ _ _ _
      | confirmWithdraw =>
          exact keeps_bind (confirmWithdraw_keepsBooks _ _ _) fun _ => keeps_pure ()
      | cancelWithdraw =>
          exact keeps_bind (cancelWithdraw_keepsBooks _ _ _ _) fun _ => keeps_pure ()
  | dispute call =>
      cases call with
      | openDispute => exact openDispute_keepsBooks _ _ _ _ _ _ _
      | resolveDispute => exact resolveDispute_keepsBooks _ _ _ _ _
      | rejectDispute => exact rejectDispute_keepsBooks _ _ _ _
      | treasuryWithdrawToUser => exact treasuryWithdrawToUser_keepsBooks _ _ _ _ _
  | session call =>
      cases call with
      | setCashierStatus => exact setCashierStatus_keepsBooks _ _ _
      | expireCashier => exact expireCashier_keepsBooks _ _
  | account call =>
      cases call with
      | addCashierCharacter =>
          exact keeps_bind (addCashierCharacter_keepsBooks _ _ _ _ _ _ _) fun _ => keeps_pure ()
      | removeCashierCharacter => exact removeCashierCharacter_keepsBooks _ _ _ _ _
      | banUser => exact banUser_keepsBooks _ _ _ _
      | unbanUser => exact unbanUser_keepsBooks _ _ _
      | consumeRateToken => exact keeps_bind (consumeToken_keepsBooks _) fun _ => keeps_pure ()
      | grantRaffleTickets =>
          exact keeps_bind (grantRaffleTickets_keepsBooks _ _ _ _ _ _) fun _ => keeps_pure ()
  | treasurySweep => exact keeps_bind (treasurySweep_keepsBooks _ _ _ _) fun _ => keeps_pure ()

/-- The functions that are not about bets leave bets alone. -/
theorem otherBody_leavesBets : LeavesBets otherBody := by
  intro env call known rows hlog
  refine post_of_keepsFrom (otherBody_keepsBooks env call) (Set.singleton_subset_iff.mpr hlog)
    fun _ _ after _ hbooks => ?_
  exact keepsBets_of_betBooks (congrArg Prod.fst hbooks)

end DeathRoll.Interleaved
