import DeathRoll.Ledger.Effects

/-! # Ticket functions refine the ledger

Each ticket function that returns takes a step of the abstract ledger.
-/

namespace DeathRoll

open Relational Tx Account
open Finsupp (single)

/-- The database takes a step that the abstract ledger allows for `call`. -/
def Database.Takes (s : Database) (env : Env) (call : Call) (s' : Database) : Prop :=
  Ledger.Step env.now s.ledger call s'.ledger ∧ s.Grows s'

variable {env : Env} {s : Database}

theorem Database.Takes.quiet {call : Call} {s' : Database}
    (hquiet : s.ledger.MayBeQuiet call) (hledger : s'.ledger = s.ledger) (hgrows : s.Grows s') :
    s.Takes env call s' :=
  ⟨.quiet hquiet hledger, hgrows⟩

/-- A balance that was read is the balance of an existing row. -/
theorem hasAccount_of_balance? {u balance : Int} (hbalance : s.balance? (some u) = some balance) :
    s.HasAccount u := by
  intro hnone
  simp [Database.balance?, hnone] at hbalance

theorem balance?_eq_some {u balance : Int} :
    s.balance? (some u) = some balance ↔
      ∃ row, s.balances.get? u = some row ∧ row.balance = balance := by
  simp [Database.balance?]

/-! ## Opening -/

/-- A new ticket is untouched and has the owner and the amount asked for. -/
theorem openTicket_fresh {post : Ticket → Database → Prop} {table : String}
    {sequence : SequenceName} {pDiscordId : Option Int}
    {pChar pRealm pRegion pFaction : Option String} {pAmount pThreadId pParentChannelId : Option Int}
    {vExpires : Timestamp}
    (hpost : ∀ ticket : Ticket, ticket.Fresh → pDiscordId = some ticket.discordId →
      pAmount = some ticket.amount → post ticket (s.advance sequence)) :
    wp (openTicket env table sequence pDiscordId pChar pRealm pRegion pFaction pAmount pThreadId
      pParentChannelId vExpires) post (fun _ => True) s := by
  unfold openTicket
  simp only [wp_bind, wp_nextval, wp_notNull, wp_checkedText, wp_dite, wp_pure, wp_throw,
    implies_true, true_and, and_true]
  intro owner howner char _ realm _ region _ _ _ faction _ _ _ amount hamount thread _ channel _ hpos
  exact hpost _ ⟨rfl, rfl, rfl, rfl, rfl⟩ howner hamount

theorem wp_insertDeposit {post : Unit → Database → Prop} {uid : String} {ticket : Ticket}
    (hpost : s.depositTickets.get? uid = none → post () (s.addDeposit uid ticket)) :
    wp (insertDeposit uid ticket) post (fun _ => True) s := by
  unfold insertDeposit
  simp only [wp_bind, wp_get, wp_raiseIf, wp_set, implies_true, true_and]
  intro _ hnew _
  exact hpost (not_ne_iff.mp hnew)

theorem wp_insertWithdraw {post : Unit → Database → Prop} {uid : String} {ticket : Ticket}
    {fee : Int}
    (hpost : ∀ hfee : 0 ≤ fee, s.withdrawTickets.get? uid = none →
      post () (s.addWithdraw uid { toTicket := ticket, fee := fee, fee_nonneg := hfee })) :
    wp (insertWithdraw uid ticket fee) post (fun _ => True) s := by
  unfold insertWithdraw
  simp only [wp_bind, wp_get, wp_raiseIf, wp_dite, wp_set, wp_throw, implies_true, true_and,
    and_true]
  intro _ hnew _ _ hfee
  exact hpost hfee (not_ne_iff.mp hnew)

theorem createDepositTicket_refines (d : Option Int) (c r g f : Option String)
    (a t p : Option Int) :
    wp (createDepositTicket env d c r g f a t p)
      (fun _ s' => s.Takes env (.createDepositTicket d c r g f a t p) s') (fun _ => True) s := by
  unfold createDepositTicket
  simp only [wp_bind, wp_get, wp_require, wp_raiseIf, wp_nextval, wp_pure, implies_true, true_and]
  intro _ vMin _ vMax _ vTtlS _ _ _ _
  refine openTicket_fresh fun ticket hfresh _ _ => wp_insertDeposit fun hnew => ?_
  refine auditLogInsert_notes rfl fun _ s₁ _ _ _ _ h₁ => ?_
  exact ⟨.depositOpened hnew hfresh (by rw [h₁.ledger, ledger_addDeposit]; rfl), h₁.grows⟩

theorem createWithdrawTicket_refines (d : Option Int) (c r g f : Option String)
    (a t p : Option Int) :
    wp (createWithdrawTicket env d c r g f a t p)
      (fun _ s' => s.Takes env (.createWithdrawTicket d c r g f a t p) s') (fun _ => True) s := by
  unfold createWithdrawTicket
  simp only [wp_bind, wp_get, wp_require, wp_raiseIf, wp_nextval, wp_notNull, wp_nullableBigint,
    wp_pure, implies_true, true_and]
  intro vMin _ vMax _ vFeeBps _ vTtlS _ _ _ _ vBanned _ _ _ _ owner howner amount hamount
  refine updateBalance_posts (single (wallet owner) (-amount) + single (locked owner) amount)
    (by simp) fun s₁ h₁ => ?_
  refine openTicket_fresh fun ticket hfresh howner' hamount' fee _ =>
    wp_insertWithdraw fun hfee hnew => ?_
  refine auditLogInsert_records fun _ s₂ _ target _ before after _ htarget _ hbefore hafter h₂ => ?_
  obtain rfl := Option.some.inj (howner.symm.trans htarget)
  obtain rfl := Option.some.inj (howner.symm.trans howner')
  obtain rfl := Option.some.inj (hamount.symm.trans hamount')
  subst howner
  have hledger := h₁.ledger (hasAccount_of_balance? hbefore)
  rw [hbefore, Option.map_some, Option.some.injEq] at hafter
  refine ⟨@Ledger.Step.withdrawOpened _ _ _ _ _ _ _ _ _ _ _
    ("withdraw-" ++ toString (s.sequences .withdrawTickets + 1))
    { toTicket := ticket, fee := fee, fee_nonneg := hfee } ?_ hfresh rfl ?_,
    h₁.grows.trans h₂.grows⟩
  · have hsame : s₁.ledger.withdraws = s.ledger.withdraws := by rw [hledger]; rfl
    rw [← hsame]
    exact hnew
  · rw [h₂.ledger, ledger_addWithdraw, ledger_advance, hledger, ledger_advance]
    simp [← hafter]

/-! ## Confirming and cancelling -/

theorem confirmDeposit_refines (u : Option String) (c : Option Int) :
    wp (confirmDeposit env u c) (fun _ s' => s.Takes env (.confirmDeposit u c) s')
      (fun _ => True) s := by
  unfold confirmDeposit
  simp only [wp_bind, wp_get, wp_require, wp_ite, wp_raiseIf, wp_nullableBigint, wp_updateDeposit,
    wp_notNull, wp_pure, implies_true, true_and]
  intro ticket hticket
  refine ⟨fun hretry => ?_, fun _ hstatus hcashier uid huid => ?_⟩
  · obtain ⟨uid, rfl, hget⟩ := Table.select_eq_some.mp hticket
    exact .quiet ⟨uid, ticket, rfl, hget, hretry.1⟩ rfl (.refl s)
  subst huid
  refine insertUser_unseen fun s₁ h₁ huser =>
    insertBalance_opens huser fun s₂ hledger haccount _ hgrows _ => ?_
  refine updateBalance_posts (single (wallet ticket.discordId) ticket.amount) ?_
    fun s₃ h₃ _ => ?_
  · intro old hold
    simp [Database.balance?, hold]
  refine auditLogInsert_records
    fun _ s₄ cashier target _ before after hactor htarget _ hbefore hafter h₄ _ _ => ?_
  refine upsertCashierStats_unseen fun s₅ h₅ => ?_
  subst hactor
  obtain rfl := Option.some.inj htarget
  rw [hbefore, Option.map_some, Option.some.injEq] at hafter
  refine ⟨.depositConfirmed hticket (not_ne_iff.mp hstatus)
    (fun claimer hclaimer => eq_of_not_isNe hcashier hclaimer) ?_, ?_⟩
  · rw [h₅.ledger, h₄.ledger, ledger_setDeposit, h₃.ledger haccount, hledger, h₁.ledger]
    simp [← hafter]
  · exact h₁.grows.trans (hgrows.trans (h₃.grows.trans (h₄.grows.trans h₅.grows)))

theorem cancelDeposit_refines (u : Option String) (a : Option Int) (r : Option String) :
    wp (cancelDeposit env u a r) (fun _ s' => s.Takes env (.cancelDeposit u a r) s')
      (fun _ => True) s := by
  unfold cancelDeposit
  simp only [wp_bind, wp_get, wp_require, wp_raiseIf, wp_updateDeposit, wp_pure, implies_true,
    true_and]
  intro ticket hticket hstatus uid huid _
  subst huid
  refine auditLogInsert_notes rfl fun _ s₁ _ _ _ _ h₁ => ?_
  exact ⟨.depositCancelled hticket hstatus h₁.ledger, h₁.grows⟩

theorem confirmWithdraw_refines (u : Option String) (c : Option Int) :
    wp (confirmWithdraw env u c) (fun _ s' => s.Takes env (.confirmWithdraw u c) s')
      (fun _ => True) s := by
  unfold confirmWithdraw
  simp only [wp_bind, wp_get, wp_require, wp_ite, wp_raiseIf, wp_updateWithdraw, wp_notNull,
    wp_pure, implies_true, true_and]
  intro ticket hticket
  refine ⟨fun hretry => ?_, fun _ hstatus hcashier _ uid huid => ?_⟩
  · obtain ⟨uid, rfl, hget⟩ := Table.select_eq_some.mp hticket
    exact .quiet ⟨uid, ticket, rfl, hget, hretry.1⟩ rfl (.refl s)
  subst huid
  refine updateBalance_posts (single (locked ticket.discordId) (-ticket.amount)) (by simp)
    fun s₁ h₁ => ?_
  refine updateBalance_posts (single (wallet 0) ticket.fee) (by simp) fun s₂ h₂ _ => ?_
  refine auditLogInsert_records
    fun _ s₃ cashier _ _ before after hactor htarget _ hbefore hafter h₃ => ?_
  refine auditLogInsert_records
    fun _ s₄ _ _ _ before' after' _ htarget' _ hbefore' hafter' h₄ _ _ => ?_
  refine upsertCashierStats_unseen fun s₅ h₅ => ?_
  subst hactor
  obtain rfl := Option.some.inj htarget
  obtain rfl := Option.some.inj htarget'
  obtain rfl := Option.some.inj (hbefore.symm.trans hafter)
  rw [hbefore', Option.map_some, Option.some.injEq] at hafter'
  have howner := hasAccount_of_balance? hbefore
  have htreasury := hasAccount_of_balance? hbefore'
  refine ⟨.withdrawConfirmed hticket (not_ne_iff.mp hstatus)
    (fun claimer hclaimer => eq_of_not_isNe hcashier hclaimer) ?_, ?_⟩
  · rw [h₅.ledger, h₄.ledger, h₃.ledger, ledger_setWithdraw, h₂.ledger htreasury, h₁.ledger howner]
    simp [← hafter', add_assoc]
  · exact h₁.grows.trans (h₂.grows.trans (h₃.grows.trans (h₄.grows.trans h₅.grows)))

theorem cancelWithdraw_refines (u : Option String) (a : Option Int) (r : Option String) :
    wp (cancelWithdraw env u a r) (fun _ s' => s.Takes env (.cancelWithdraw u a r) s')
      (fun _ => True) s := by
  unfold cancelWithdraw
  simp only [wp_bind, wp_get, wp_require, wp_raiseIf, wp_nullableBigint, wp_updateWithdraw, wp_pure,
    implies_true, true_and]
  intro ticket hticket hstatus _ uid huid _
  subst huid
  refine updateBalance_posts (single (wallet ticket.discordId) ticket.amount +
    single (locked ticket.discordId) (-ticket.amount)) ?_ fun s₁ h₁ _ => ?_
  · intro old hold
    simp [Database.balance?, hold]
  refine auditLogInsert_records
    fun _ s₂ _ target _ before after _ htarget _ hbefore hafter h₂ => ?_
  obtain rfl := Option.some.inj htarget
  have hledger := h₁.ledger (hasAccount_of_balance? hbefore)
  rw [hbefore, Option.map_some, Option.some.injEq] at hafter
  have hstep : ∀ s₃ : Database, s₃.ledger = s₂.ledger → s₂.Grows s₃ →
      s.Takes env (.cancelWithdraw (some uid) a r) s₃ := by
    intro s₃ hs₃ hgrows
    refine ⟨.withdrawCancelled hticket hstatus ?_, h₁.grows.trans (h₂.grows.trans hgrows)⟩
    rw [hs₃, h₂.ledger, ledger_setWithdraw, hledger]
    simp [← hafter]
  refine (wp_ifDo _ _).mpr ⟨fun _ => ?_, fun _ => hstep s₂ rfl (.refl s₂)⟩
  exact upsertCashierStats_unseen fun s₃ h₃ => hstep s₃ h₃.ledger h₃.grows

/-! ## Claiming and releasing -/

/-- A ticket update writes the table that a valid type names; a `NULL` type
gets past the type check and writes a withdraw ticket. -/
theorem updateTicket_cases {post : Unit → Database → Prop} {k : Option String} {uid : String}
    {assign : Ticket → Ticket} {ticket : Ticket} (hkind : ¬ IsNotIn k TicketType.texts)
    (hticket : s.ticket? k (some uid) = some ticket) (hnull : k = none → ∀ s', post () s')
    (hdeposit : k = some "deposit" → s.depositTickets.get? uid = some ticket →
      post () (s.setDeposit uid (assign ticket)))
    (hwithdraw : ∀ w : WithdrawTicket, k = some "withdraw" → s.withdrawTickets.get? uid = some w →
      ticket = w.toTicket → post () (s.setWithdraw uid { w with toTicket := assign w.toTicket })) :
    wp (updateTicket k uid assign) post (fun _ => True) s := by
  unfold updateTicket
  unfold Database.ticket? at hticket
  simp only [wp_bind, wp_get, wp_ite]
  refine ⟨fun htype => ?_, fun htype => ?_⟩
  · rw [if_pos htype, Table.select_some] at hticket
    rw [hticket]
    obtain ⟨_, hk, hdep⟩ := htype
    obtain rfl := Option.some.inj hdep
    exact (wp_updateDeposit uid ticket _).mpr ⟨fun _ => trivial, fun _ => hdeposit hk hticket⟩
  · rw [if_neg htype, Table.select_some, Option.map_eq_some_iff] at hticket
    obtain ⟨w, hw, rfl⟩ := hticket
    rw [hw]
    refine (wp_updateWithdraw uid w _).mpr ⟨fun _ => trivial, fun _ => ?_⟩
    cases k with
    | none => exact hnull rfl _
    | some kind =>
        rw [isNotIn_some, not_not] at hkind
        rw [isEq_some] at htype
        have hkind : kind = "withdraw" := by simpa [TicketType.texts, htype] using hkind
        exact hwithdraw w (by rw [hkind]) hw rfl

theorem claimTicket_refines (k u : Option String) (c : Option Int) :
    wp (claimTicket env k u c) (fun _ s' => s.Takes env (.claimTicket k u c) s')
      (fun _ => True) s := by
  unfold claimTicket
  simp only [wp_bind, wp_get, wp_require, wp_raiseIf, wp_pure, implies_true, true_and]
  intro hkind ticket hticket hstatus _ uid huid
  subst huid
  refine updateTicket_cases hkind hticket ?_ ?_ ?_
  · rintro rfl s₁
    exact auditLogInsert_notes rfl fun _ _ _ _ _ htext => by cases htext
  · rintro rfl hget
    refine auditLogInsert_notes rfl fun _ s₁ cashier _ hactor _ h₁ => ?_
    subst hactor
    exact ⟨.depositClaimed hget (not_ne_iff.mp hstatus) h₁.ledger, h₁.grows⟩
  · rintro w rfl hget rfl
    refine auditLogInsert_notes rfl fun _ s₁ cashier _ hactor _ h₁ => ?_
    subst hactor
    exact ⟨.withdrawClaimed hget (not_ne_iff.mp hstatus) h₁.ledger, h₁.grows⟩

theorem releaseTicket_refines (k u : Option String) (a : Option Int) :
    wp (releaseTicket env k u a) (fun _ s' => s.Takes env (.releaseTicket k u a) s')
      (fun _ => True) s := by
  unfold releaseTicket
  simp only [wp_bind, wp_get, wp_require, wp_raiseIf, wp_pure, implies_true, true_and]
  intro hkind ticket hticket hstatus _ uid huid
  subst huid
  refine updateTicket_cases hkind hticket ?_ ?_ ?_
  · rintro rfl s₁
    exact auditLogInsert_notes rfl fun _ _ _ _ _ htext => by cases htext
  · rintro rfl hget
    refine auditLogInsert_notes rfl fun _ s₁ _ _ _ _ h₁ => ?_
    exact ⟨.depositReleased hget (not_ne_iff.mp hstatus) h₁.ledger, h₁.grows⟩
  · rintro w rfl hget rfl
    refine auditLogInsert_notes rfl fun _ s₁ _ _ _ _ h₁ => ?_
    exact ⟨.withdrawReleased hget (not_ne_iff.mp hstatus) h₁.ledger, h₁.grows⟩

end DeathRoll
