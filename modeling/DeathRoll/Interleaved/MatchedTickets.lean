import DeathRoll.Interleaved.Matching

/-! # Tickets match their scripts

Wherever the script of a ticket function commits, the function returns on the
database that the committed rows stand for, and leaves one that the new rows stand
for. `dw.claim_ticket` reads the cashier's characters without a lock, so nothing
here may write them.
-/

namespace DeathRoll.Interleaved

open Relational Script

variable {known : Set LedgerKey} {rows : LedgerRows} {s : Database}

/-- What is left to show at the end of both: the rows stand for the database. -/
abbrev Standing {α β : Type} : α → β → Set LedgerKey → LedgerRows → Database → Prop :=
  fun _ _ _ rows s => Stands rows s

section Reads

variable {α β : Type} {next : α → β → Set LedgerKey → LedgerRows → Database → Prop}

theorem matchedBy_selectDeposit (h : Stands rows s) {pTicketUid : Option String} {e e' : DbError}
    {f : Ticket → LedgerScript α} {g : Ticket → LedgerTx β}
    (hnext : ∀ uid ticket known', pTicketUid = some uid → rows (.deposit uid) = some ticket →
      known ⊆ known' → .deposit uid ∈ known' →
      (f ticket).MatchedBy settlementSchema next (g ticket) known' rows s) :
    (do f (← require e (← selectDeposit pTicketUid))).MatchedBy settlementSchema next
      (do g (← Tx.require e' (s.depositTickets.select pTicketUid))) known rows s := by
  cases pTicketUid with
  | none => exact matchedBy_fail e _
  | some uid =>
      apply matchedBy_lockOrRaise
      intro ticket known' hticket hgrow hknown hrefs
      rw [Table.select_some, h.deposit, hticket]
      exact hnext uid ticket known' rfl hticket hgrow hknown

theorem matchedBy_selectWithdraw (h : Stands rows s) {pTicketUid : Option String}
    {e e' : DbError} {f : WithdrawTicket → LedgerScript α} {g : WithdrawTicket → LedgerTx β}
    (hnext : ∀ uid ticket known', pTicketUid = some uid → rows (.withdraw uid) = some ticket →
      known ⊆ known' → .withdraw uid ∈ known' → .balance ticket.discordId ∈ known' →
      (f ticket).MatchedBy settlementSchema next (g ticket) known' rows s) :
    (do f (← require e (← selectWithdraw pTicketUid))).MatchedBy settlementSchema next
      (do g (← Tx.require e' (s.withdrawTickets.select pTicketUid))) known rows s := by
  cases pTicketUid with
  | none => exact matchedBy_fail e _
  | some uid =>
      apply matchedBy_lockOrRaise
      intro ticket known' hticket hgrow hknown hrefs
      rw [Table.select_some, h.withdraw, hticket]
      exact hnext uid ticket known' rfl hticket hgrow hknown (hrefs rfl)

/-- The ticket a type and uid name is there, and known with the account of a withdraw. -/
inductive Ticketed (rows : LedgerRows) (known : Set LedgerKey) (pTicketType : Option String)
    (uid : String) : Ticket → Prop
  | deposit {ticket : Ticket} (htype : IsEq pTicketType (some "deposit"))
      (hticket : rows (.deposit uid) = some ticket) (hknown : .deposit uid ∈ known) :
      Ticketed rows known pTicketType uid ticket
  | withdraw {ticket : WithdrawTicket} (htype : ¬ IsEq pTicketType (some "deposit"))
      (hticket : rows (.withdraw uid) = some ticket) (hknown : .withdraw uid ∈ known)
      (howner : .balance ticket.discordId ∈ known) :
      Ticketed rows known pTicketType uid ticket.toTicket

theorem Ticketed.mono {known known' : Set LedgerKey} {pTicketType : Option String} {uid : String}
    {ticket : Ticket} (h : Ticketed rows known pTicketType uid ticket) (hgrow : known ⊆ known') :
    Ticketed rows known' pTicketType uid ticket := by
  cases h with
  | deposit htype hticket hknown => exact .deposit htype hticket (hgrow hknown)
  | withdraw htype hticket hknown howner =>
      exact .withdraw htype hticket (hgrow hknown) (hgrow howner)

theorem matchedBy_selectTicket (h : Stands rows s) {pTicketType pTicketUid : Option String}
    {e e' : DbError} {f : Ticket → LedgerScript α} {g : Ticket → LedgerTx β}
    (hnext : ∀ uid ticket known', pTicketUid = some uid →
      Ticketed rows known' pTicketType uid ticket → known ⊆ known' →
      (f ticket).MatchedBy settlementSchema next (g ticket) known' rows s) :
    (do f (← require e (← selectTicket pTicketType pTicketUid))).MatchedBy settlementSchema next
      (do g (← Tx.require e' (s.ticket? pTicketType pTicketUid))) known rows s := by
  unfold selectTicket Database.ticket?
  by_cases htype : IsEq pTicketType (some "deposit")
  · rw [if_pos htype, if_pos htype]
    apply matchedBy_selectDeposit h
    intro uid ticket known' huid hticket hgrow hknown
    exact hnext uid ticket known' huid (.deposit htype hticket hknown) hgrow
  · rw [if_neg htype, if_neg htype]
    apply matchedBy_left
    rw [post_bind]
    cases pTicketUid with
    | none => trivial
    | some uid =>
        refine (post_lock (LedgerKey.withdraw uid)).mpr ⟨fun _ => trivial, ?_⟩
        intro ticket hticket known' hgrow hknown hrefs
        rw [Table.select_some, h.withdraw, hticket]
        exact hnext uid _ known' rfl (.withdraw htype hticket hknown (hrefs rfl)) hgrow

end Reads

/-- The update of the ticket that has been selected. -/
theorem matchedBy_updateTicket {next : Unit → Unit → Set LedgerKey → LedgerRows → Database → Prop}
    (h : Stands rows s) {pTicketType : Option String} {uid : String} {ticket : Ticket}
    (hticket : Ticketed rows known pTicketType uid ticket) {assign : Ticket → Ticket}
    (hkeeps : ∀ old, (assign old).discordId = old.discordId ∧ (assign old).amount = old.amount)
    (hnext : ∀ rows' known' s', (∀ id, rows' (.user id) = rows (.user id)) → known ⊆ known' →
      Stands rows' s' → next () () known' rows' s') :
    (updateTicket pTicketType uid assign).MatchedBy settlementSchema next
      (DeathRoll.updateTicket pTicketType uid assign) known rows s := by
  unfold updateTicket DeathRoll.updateTicket
  apply matchedBy_get
  cases hticket with
  | deposit htype hticket hknown =>
      rw [if_pos htype, if_pos htype]
      apply matchedBy_lock hknown
      intro row known' hrow hgrow _ _
      rw [h.deposit, hrow]
      apply matchedBy_updateDeposit h hrow
      · exact ⟨(hkeeps row).1.symm, (hkeeps row).2.symm⟩
      · intro rows' hrows' h'
        exact hnext rows' known' _ (fun id => by rw [hrows']; simp) hgrow h'
  | withdraw htype hticket hknown howner =>
      rw [if_neg htype, if_neg htype]
      apply matchedBy_lock hknown
      intro row known' hrow hgrow _ hrefs
      rw [h.withdraw, hrow]
      apply matchedBy_updateWithdraw h hrow
      · exact ⟨(hkeeps row.toTicket).1.symm, (hkeeps row.toTicket).2.symm, rfl⟩
      · exact hrefs rfl
      · intro rows' hrows' h'
        exact hnext rows' known' _ (fun id => by rw [hrows']; simp) hgrow h'

/-- Whom an audit row names that is about the user. -/
def registeredId (rows : LedgerRows) (discordId : Int) : Int :=
  if rows (.user discordId) = none then 0 else discordId

theorem registeredId_congr {rows rows' : LedgerRows}
    (husers : ∀ id, rows' (.user id) = rows (.user id)) (discordId : Int) :
    registeredId rows' discordId = registeredId rows discordId := by
  rw [registeredId, registeredId, husers]

theorem Stands.registeredOr0 (h : Stands rows s) (discordId : Int) :
    s.registeredOr0 (some discordId) = registeredId rows discordId := by
  rw [Database.registeredOr0, Table.select_some, h.user]
  rfl

/-- The end of several calls: the owner's balance and the owner are looked up without a
lock, and the audit row is written. -/
theorem matchedBy_auditTicket (h : Stands rows s) (hlog : .auditLog ∈ known) (env : Env)
    (discordId : Int) {p : Option Int → Int → AuditParams} {p' : AuditParams}
    (hp : ∀ balance target,
      (rows (.user target) ≠ none → rows (.user (registeredId rows discordId)) ≠ none) →
      Alike rows (p balance target) p') :
    (do
      let balance ← selectBalance discordId
      let target ← registeredOr0 discordId
      auditLogInsertWithChain env (p balance target)).MatchedBy settlementSchema Standing
      (do let _ ← DeathRoll.auditLogInsertWithChain env p') known rows s := by
  apply matchedBy_drop
  apply matchedBy_see
  intro keys₁ seen₁ _ hknown₁ _
  apply matchedBy_see
  intro keys₂ seen₂ _ hknown₂ hseen₂
  apply matchedBy_audit h (hknown₂ (hknown₁ hlog)) env
  · apply hp
    intro htarget
    unfold registeredId
    -- a user that is not there now was not there when it was looked up
    by_cases huser : rows (.user discordId) = none
    · have hunseen : seen₂ (.user discordId) = none := by
        by_contra hseen
        exact hseen₂.present_subset hseen huser
      have hzero : (if (seen₂ (.user discordId)).isSome then discordId else 0) = 0 := by
        rw [hunseen]
        rfl
      rw [if_pos huser]
      exact hzero ▸ htarget
    · rw [if_neg huser]
      exact huser
  · intro content id rows' known' s' _ _ h'
    exact h'

theorem confirmDeposit_matched (h : Stands rows s) (hlog : .auditLog ∈ known) (env : Env)
    (pTicketUid : Option String) (pCashierId : Option Int) :
    (confirmDeposit env pTicketUid pCashierId).MatchedBy settlementSchema Standing
      (DeathRoll.confirmDeposit env pTicketUid pCashierId) known rows s := by
  unfold confirmDeposit DeathRoll.confirmDeposit
  apply matchedBy_get
  apply matchedBy_selectDeposit h
  intro uid ticket known₁ huid hticket hgrow₁ hknown₁
  apply matchedBy_ite Iff.rfl
  · intro hretry keys seen _ _ _
    exact h
  · intro hretry
    apply matchedBy_raise id
    intro hstatus
    apply matchedBy_raise id
    intro hclaimed
    subst huid
    apply matchedBy_bind
    apply matchedBy_require
    rintro _ ⟨⟩
    refine ⟨uid, rfl, ?_⟩
    apply matchedBy_bind
    apply matchedBy_insertUser h
    intro rows₂ known₂ hrows₂ hgrow₂ huser h₂
    apply matchedBy_bind
    apply matchedBy_insertBalance h₂
    intro rows₃ known₃ hrows₃ hgrow₃ hbalance h₃
    apply matchedBy_lock hbalance
    intro held known₄ hheld hgrow₄ hbalance₄ hrefs
    apply matchedBy_get
    rw [h₃.balance? hheld]
    apply matchedBy_bind
    apply matchedBy_nullableBigint
    apply matchedBy_bind
    apply matchedBy_updateBalance h₃ hbalance₄
    intro row new rows₅ known₅ hrow hnew hrows₅ hgrow₅ h₅
    apply matchedBy_bind
    apply matchedBy_updateDeposit h₅
    · subst hrows₅ hrows₃ hrows₂
      simpa using hticket
    · exact ⟨rfl, rfl⟩
    intro rows₆ hrows₆ h₆
    apply matchedBy_bind
    apply matchedBy_audit h₆ (hgrow₅ (hgrow₄ (hgrow₃ (hgrow₂ (hgrow₁ hlog))))) env (.refl _ _)
    intro content id rows₇ known₇ s₇ hrows₇ hgrow₇ h₇
    apply matchedBy_bind
    apply matchedBy_notNull
    intro cashier hcashier
    apply matchedBy_bind
    apply matchedBy_upsertCashierStats h₇
    intro stats rows₈ known₈ hrows₈ hgrow₈ h₈
    exact h₈

theorem cancelDeposit_matched (h : Stands rows s) (hlog : .auditLog ∈ known) (env : Env)
    (pTicketUid : Option String) (pActorId : Option Int) (pReason : Option String) :
    (cancelDeposit env pTicketUid pActorId pReason).MatchedBy settlementSchema Standing
      (DeathRoll.cancelDeposit env pTicketUid pActorId pReason) known rows s := by
  unfold cancelDeposit DeathRoll.cancelDeposit
  apply matchedBy_get
  apply matchedBy_selectDeposit h
  intro uid ticket known₁ huid hticket hgrow₁ hknown₁
  apply matchedBy_raise id
  intro hstatus
  subst huid
  apply matchedBy_bind
  apply matchedBy_require
  rintro _ ⟨⟩
  refine ⟨uid, rfl, ?_⟩
  apply matchedBy_bind
  apply matchedBy_updateDeposit h hticket
  · exact ⟨rfl, rfl⟩
  intro rows₂ hrows₂ h₂
  apply matchedBy_get
  apply matchedBy_auditTicket h₂ (hgrow₁ hlog)
  intro balance target htarget
  refine ⟨rfl, fun _ => Option.some_ne_none _, fun _ => Option.some_ne_none _, ?_⟩
  rintro _ ⟨⟩ huser
  exact ⟨_, rfl, h₂.registeredOr0 _ ▸ htarget huser⟩

/-- A cashier that has been seen to serve a region serves it still. -/
theorem servesRegion_of_seen (h : Stands rows s) {keys : List LedgerKey}
    {seen : LedgerRows} (hseen : Older settlementSchema seen rows) {cashier : Option Int}
    {region : Region} (hserves : (keys.any fun
      | .cashierCharacter key =>
          cashier = some key.discordId ∧ key.region = region ∧
            (seen (.cashierCharacter key)).any CashierCharacter.isActive
      | _ => false) = true) : s.servesRegion cashier region = true := by
  obtain ⟨k, -, hk⟩ := List.any_eq_true.mp hserves
  split at hk
  next key =>
    simp only [decide_eq_true_eq] at hk
    obtain ⟨hcashier, hregion, hactive⟩ := hk
    cases hrow : seen (.cashierCharacter key) with
    | none => simp [hrow] at hactive
    | some row =>
        obtain ⟨row', hrow', hkeeps⟩ := hseen _ row hrow
        obtain rfl : row = row' := hkeeps.2 trivial
        rw [Database.servesRegion, Table.any_eq_true]
        refine ⟨key, row, (h.character key).trans hrow', ?_⟩
        simpa [hrow, hcashier, hregion] using hactive
  next => cases hk

theorem claimTicket_matched (h : Stands rows s) (hlog : .auditLog ∈ known) (env : Env)
    (pTicketType pTicketUid : Option String) (pCashierId : Option Int) :
    (claimTicket env pTicketType pTicketUid pCashierId).MatchedBy settlementSchema Standing
      (DeathRoll.claimTicket env pTicketType pTicketUid pCashierId) known rows s := by
  unfold claimTicket DeathRoll.claimTicket
  apply matchedBy_raise id
  intro htype
  apply matchedBy_get
  apply matchedBy_selectTicket h
  intro uid ticket known₁ huid hticket hgrow₁
  apply matchedBy_raise id
  intro hstatus
  apply matchedBy_see
  intro keys seen hkeys hknown hseen
  apply matchedBy_raise
  · intro hserves
    rw [← Bool.not_eq_true]
    exact fun hfound => hserves (servesRegion_of_seen h hseen hfound)
  intro hserves
  subst huid
  apply matchedBy_bind
  apply matchedBy_require
  rintro _ ⟨⟩
  refine ⟨uid, rfl, ?_⟩
  apply matchedBy_bind
  apply matchedBy_updateTicket h (hticket.mono hknown)
  · exact fun old => ⟨rfl, rfl⟩
  intro rows₂ known₂ s₂ husers hgrow₂ h₂
  apply matchedBy_auditTicket h₂ (hgrow₂ (hknown (hgrow₁ hlog)))
  intro balance target htarget
  refine ⟨rfl, fun _ => Option.some_ne_none _, fun _ => Option.some_ne_none _, ?_⟩
  rintro _ ⟨⟩ huser
  refine ⟨_, rfl, ?_⟩
  rw [h.registeredOr0, ← registeredId_congr husers]
  exact htarget huser

theorem releaseTicket_matched (h : Stands rows s) (hlog : .auditLog ∈ known) (env : Env)
    (pTicketType pTicketUid : Option String) (pActorId : Option Int) :
    (releaseTicket env pTicketType pTicketUid pActorId).MatchedBy settlementSchema Standing
      (DeathRoll.releaseTicket env pTicketType pTicketUid pActorId) known rows s := by
  unfold releaseTicket DeathRoll.releaseTicket
  apply matchedBy_raise id
  intro htype
  apply matchedBy_get
  apply matchedBy_selectTicket h
  intro uid ticket known₁ huid hticket hgrow₁
  apply matchedBy_raise id
  intro hstatus
  apply matchedBy_raise id
  intro hclaimed
  subst huid
  apply matchedBy_bind
  apply matchedBy_require
  rintro _ ⟨⟩
  refine ⟨uid, rfl, ?_⟩
  apply matchedBy_bind
  apply matchedBy_updateTicket h hticket
  · exact fun old => ⟨rfl, rfl⟩
  intro rows₂ known₂ s₂ husers hgrow₂ h₂
  apply matchedBy_auditTicket h₂ (hgrow₂ (hgrow₁ hlog))
  intro balance target htarget
  refine ⟨rfl, fun _ => Option.some_ne_none _, fun _ => Option.some_ne_none _, ?_⟩
  rintro _ ⟨⟩ huser
  refine ⟨_, rfl, ?_⟩
  rw [h.registeredOr0, ← registeredId_congr husers]
  exact htarget huser

theorem confirmWithdraw_matched (h : Stands rows s) (hlog : .auditLog ∈ known)
    (htreasury : .balance 0 ∈ known) (env : Env) (pTicketUid : Option String)
    (pCashierId : Option Int) :
    (confirmWithdraw env pTicketUid pCashierId).MatchedBy settlementSchema Standing
      (DeathRoll.confirmWithdraw env pTicketUid pCashierId) known rows s := by
  unfold confirmWithdraw DeathRoll.confirmWithdraw
  apply matchedBy_get
  apply matchedBy_selectWithdraw h
  intro uid ticket known₁ huid hticket hgrow₁ hknown₁ howner
  apply matchedBy_ite Iff.rfl
  · intro hretry keys seen _ _ _
    exact h
  · intro hretry
    apply matchedBy_raise id
    intro hstatus
    apply matchedBy_raise id
    intro hclaimed
    apply matchedBy_lock howner
    intro row known₂ hrow hgrow₂ howner₂ _
    rw [h.balance? hrow, h.lockedBalance? hrow]
    apply matchedBy_raise id
    intro hlocked
    subst huid
    apply matchedBy_bind
    apply matchedBy_require
    rintro _ ⟨⟩
    refine ⟨uid, rfl, ?_⟩
    apply matchedBy_bind
    apply matchedBy_updateBalance h howner₂
    intro old new rows₃ known₃ hold hnew hrows₃ hgrow₃ h₃
    apply matchedBy_lock (hgrow₃ (hgrow₂ (hgrow₁ htreasury)))
    intro treasury known₄ htreasury₄ hgrow₄ htreasury₅ _
    apply matchedBy_get
    rw [h₃.balance? htreasury₄]
    apply matchedBy_bind
    apply matchedBy_updateBalance h₃ htreasury₅
    intro old₅ new₅ rows₅ known₅ hold₅ hnew₅ hrows₅ hgrow₅ h₅
    apply matchedBy_bind
    apply matchedBy_updateWithdraw h₅
    · subst hrows₅ hrows₃
      simpa using hticket
    · exact ⟨rfl, rfl, rfl⟩
    · exact hgrow₅ (hgrow₄ (hgrow₃ howner₂))
    intro rows₆ hrows₆ h₆
    have hlog₅ : LedgerKey.auditLog ∈ known₅ :=
      hgrow₅ (hgrow₄ (hgrow₃ (hgrow₂ (hgrow₁ hlog))))
    apply matchedBy_bind
    apply matchedBy_audit h₆ hlog₅ env (.refl _ _)
    intro content id rows₇ known₇ s₇ hrows₇ hgrow₇ h₇
    apply matchedBy_bind
    apply matchedBy_audit h₇ (hgrow₇ hlog₅) env (.refl _ _)
    intro content₈ id₈ rows₈ known₈ s₈ hrows₈ hgrow₈ h₈
    apply matchedBy_bind
    apply matchedBy_notNull
    intro cashier hcashier
    apply matchedBy_bind
    apply matchedBy_upsertCashierStats h₈
    intro stats rows₉ known₉ hrows₉ hgrow₉ h₉
    exact h₉

theorem cancelWithdraw_matched (h : Stands rows s) (hlog : .auditLog ∈ known) (env : Env)
    (pTicketUid : Option String) (pActorId : Option Int) (pReason : Option String) :
    (cancelWithdraw env pTicketUid pActorId pReason).MatchedBy settlementSchema Standing
      (DeathRoll.cancelWithdraw env pTicketUid pActorId pReason) known rows s := by
  unfold cancelWithdraw DeathRoll.cancelWithdraw
  apply matchedBy_get
  apply matchedBy_selectWithdraw h
  intro uid ticket known₁ huid hticket hgrow₁ hknown₁ howner
  apply matchedBy_raise id
  intro hstatus
  apply matchedBy_lock howner
  intro row known₂ hrow hgrow₂ howner₂ _
  rw [h.balance? hrow, h.lockedBalance? hrow]
  apply matchedBy_raise id
  intro hlocked
  subst huid
  apply matchedBy_bind
  apply matchedBy_require
  rintro _ ⟨⟩
  refine ⟨uid, rfl, ?_⟩
  apply matchedBy_bind
  apply matchedBy_nullableBigint
  apply matchedBy_bind
  apply matchedBy_updateBalance h howner₂
  intro old new rows₃ known₃ hold hnew hrows₃ hgrow₃ h₃
  apply matchedBy_bind
  apply matchedBy_updateWithdraw h₃
  · subst hrows₃
    simpa using hticket
  · exact ⟨rfl, rfl, rfl⟩
  · exact hgrow₃ howner₂
  intro rows₄ hrows₄ h₄
  apply matchedBy_bind
  apply matchedBy_audit h₄ (hgrow₃ (hgrow₂ (hgrow₁ hlog))) env (.refl _ _)
  intro content id rows₅ known₅ s₅ hrows₅ hgrow₅ h₅
  apply matchedBy_bind
  apply matchedBy_ifDo Iff.rfl
  · intro hcashier
    apply matchedBy_upsertCashierStats h₅
    intro stats rows₆ known₆ hrows₆ hgrow₆ h₆
    exact h₆
  · intro hcashier
    exact h₅

end DeathRoll.Interleaved
