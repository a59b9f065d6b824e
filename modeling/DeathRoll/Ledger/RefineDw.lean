import DeathRoll.Ledger.RefineTickets

/-! # Treasury, dispute, cashier and ban functions refine the ledger -/

namespace DeathRoll

open Relational Tx Account
open Finsupp (single)

variable {env : Env} {s : Database}

/-! ## Treasury -/

theorem treasurySweep_refines (amount admin : Option Int) (reason : Option String) :
    wp (treasurySweep env amount admin reason)
      (fun _ s' => s.Takes env (.treasurySweep amount admin reason) s') (fun _ => True) s := by
  unfold treasurySweep
  simp only [wp_bind, wp_get, wp_require, wp_raiseIf, wp_pure, implies_true, true_and]
  rintro amount rfl _ before hbefore _
  refine updateBalance_posts (single (wallet 0) (-amount)) ?_ fun s₁ h₁ => ?_
  · intro old hold
    obtain ⟨row, hrow, rfl⟩ := balance?_eq_some.mp hbefore
    obtain rfl := Option.some.inj (hrow.symm.trans hold)
    simp
  refine auditLogInsert_records fun _ s₂ _ _ _ _ _ _ htarget _ hb ha h₂ => ?_
  obtain rfl := Option.some.inj htarget
  obtain rfl := Option.some.inj hb
  obtain rfl := Option.some.inj ha
  refine ⟨.swept ?_, h₁.grows.trans h₂.grows⟩
  rw [h₂.ledger, h₁.ledger (hasAccount_of_balance? hbefore)]
  simp

/-- What a payment from the treasury to a user leaves behind. -/
theorem treasuryWithdrawToUser_pays {post : Unit → Database → Prop}
    {pAmount pTargetUser pAdminId : Option Int} {pReason : Option String}
    (hpost : ∀ s' amount user, pAmount = some amount → pTargetUser = some user → user ≠ 0 →
      s'.ledger =
        { s.ledger with
          books := s.ledger.books + (single (wallet 0) (-amount) + single (wallet user) amount)
          audited := s.ledger.audited + (single 0 (-amount) + single user amount) } →
      s.Grows s' → post () s') :
    wp (treasuryWithdrawToUser env pAmount pTargetUser pAdminId pReason) post (fun _ => True) s := by
  unfold treasuryWithdrawToUser
  simp only [wp_bind, wp_get, wp_require, wp_raiseIf, wp_nullableBigint, wp_notNull, wp_pure,
    implies_true, true_and]
  rintro amount rfl _ hself treasury htreasury _ user rfl
  rw [isEq_some] at hself
  refine insertUser_unseen fun s₁ h₁ huser =>
    insertBalance_opens huser fun s₂ hledger haccount hother hgrows _ => ?_
  refine updateBalance_posts (single (wallet 0) (-amount)) (by simp) fun s₃ h₃ => ?_
  refine updateBalance_posts (single (wallet user) amount) ?_ fun s₄ h₄ => ?_
  · intro old hold
    rw [h₃.other user hself] at hold
    simp [Database.balance?, hold]
  refine auditLogInsert_records fun _ s₅ _ _ _ _ _ _ htarget _ hb ha h₅ => ?_
  refine auditLogInsert_records fun _ s₆ _ _ _ before after _ htarget' _ hb' ha' h₆ => ?_
  obtain rfl := Option.some.inj htarget
  obtain rfl := Option.some.inj htarget'
  obtain rfl := Option.some.inj hb
  obtain rfl := Option.some.inj ha
  rw [hb', Option.map_some, Option.some.injEq] at ha'
  have htreasury₂ : s₂.HasAccount 0 :=
    hgrows.accounts (h₁.grows.accounts (hasAccount_of_balance? htreasury))
  refine hpost s₆ amount user rfl rfl hself ?_ ?_
  · rw [h₆.ledger, h₅.ledger, h₄.ledger (h₃.grows.accounts haccount), h₃.ledger htreasury₂, hledger,
      h₁.ledger]
    simp [← ha', add_assoc]
  · exact h₁.grows.trans (hgrows.trans
      (h₃.grows.trans (h₄.grows.trans (h₅.grows.trans h₆.grows))))

theorem treasuryWithdrawToUser_refines (amount target admin : Option Int)
    (reason : Option String) :
    wp (treasuryWithdrawToUser env amount target admin reason)
      (fun _ s' => s.Takes env (.treasuryWithdrawToUser amount target admin reason) s')
      (fun _ => True) s := by
  refine treasuryWithdrawToUser_pays ?_
  rintro s' amount user rfl rfl huser hledger hgrows
  exact ⟨.treasuryPaid huser hledger, hgrows⟩

/-! ## Disputes -/

theorem openDispute_refines (k u : Option String) (o : Option Int) (l r : Option String) :
    wp (openDispute env k u o l r) (fun _ s' => s.Takes env (.openDispute k u o l r) s')
      (fun _ => True) s := by
  unfold openDispute insertDispute
  simp only [wp_bind, wp_get, wp_require, wp_raiseIf, wp_notNull, wp_checkedText, wp_nextval, wp_set,
    wp_pure, implies_true, true_and]
  intro _ _ owner _ _ _ kind _ uid _ opener _ _ _ role _ text _ hnew hunique
  refine auditLogInsert_notes rfl fun _ s₁ _ _ _ _ h₁ => ?_
  refine ⟨.disputeOpened (not_ne_iff.mp hnew) ?_ ?_ h₁.ledger, h₁.grows⟩
  · intro other d hd hsame
    exact hunique (Table.any_eq_true.mpr ⟨other, d, hd, by simpa using hsame⟩)
  · rfl

/-- `payRefund` pays nobody, or it pays the owner of the disputed ticket. -/
theorem payRefund_cases {post : Unit → Database → Prop} {dispute : Dispute} {id : Option Int}
    {action : Option String} {amount resolvedBy : Option Int}
    (hunpaid : action ≠ some "partial-refund" → action ≠ some "refund-full" → post () s)
    (hpaid : ∀ s' text user paid, action = some text → user ≠ 0 →
      (text = "partial-refund" ∨ text = "refund-full" ∧ ∃ ticket, dispute.ticketType = .withdraw ∧
        s.withdrawTickets.get? dispute.ticketUid = some ticket ∧ user = ticket.discordId ∧
        paid = ticket.amount) →
      s'.ledger =
        { s.ledger with
          books := s.ledger.books + (single (wallet 0) (-paid) + single (wallet user) paid)
          audited := s.ledger.audited + (single 0 (-paid) + single user paid) } →
      s.Grows s' → post () s') :
    wp (payRefund env s dispute id action amount resolvedBy) post (fun _ => True) s := by
  unfold payRefund
  simp only [wp_bind, wp_ifDo, wp_require, wp_raiseIf, implies_true, true_and]
  refine ⟨?_, fun hpartial => ⟨?_, fun hfull => ?_⟩⟩
  · rintro ⟨text, rfl, htext⟩ amount _ _
    obtain rfl := Option.some.inj htext
    refine treasuryWithdrawToUser_pays fun s' paid user _ _ huser hledger hgrows =>
      ⟨fun hfull => ?_, fun _ => hpaid s' _ user paid rfl huser (.inl rfl) hledger hgrows⟩
    simp at hfull
  · rintro ⟨text, rfl, htext⟩ hkind
    obtain rfl := Option.some.inj htext
    refine treasuryWithdrawToUser_pays fun s' paid user hpaid' huser' huser hledger hgrows => ?_
    obtain ⟨ticket, hticket, rfl⟩ := Option.map_eq_some_iff.mp hpaid'
    have hkind := not_ne_iff.mp hkind
    rw [Database.disputedUser, hkind] at huser'
    simp only [hticket, Option.map_some, Option.some.injEq] at huser'
    exact hpaid s' _ user ticket.amount rfl huser
      (.inr ⟨rfl, ticket, hkind, hticket, huser'.symm, rfl⟩) hledger hgrows
  · refine hunpaid ?_ ?_
    · rintro rfl
      exact hpartial (isEq_some.mpr rfl)
    · rintro rfl
      exact hfull (isEq_some.mpr rfl)

theorem resolveDispute_refines (d : Option Int) (c : Option String) (a b : Option Int) :
    wp (resolveDispute env d c a b) (fun _ s' => s.Takes env (.resolveDispute d c a b) s')
      (fun _ => True) s := by
  unfold resolveDispute
  simp only [wp_bind, wp_get, wp_require, wp_raiseIf, wp_modify, wp_pure, implies_true, true_and]
  intro dispute hdispute hstatus haction
  refine payRefund_cases (fun hpartial hfull id hid => ?_)
    fun s₁ text user paid htext huser hrefund hledger hgrows id hid => ?_
  · subst hid
    refine auditLogInsert_notes rfl fun _ s₁ _ _ _ haudit h₁ => ?_
    obtain ⟨text, rfl, _⟩ := Option.map_eq_some_iff.mp haudit
    refine ⟨.disputeDismissed hdispute hstatus ?_ h₁.ledger, h₁.grows⟩
    rw [isNotIn_some, not_not] at haction
    simp only [resolutions, List.mem_cons, List.not_mem_nil, or_false] at haction
    simp only [ne_eq, Option.some.injEq] at hpartial hfull
    tauto
  · subst hid htext
    refine auditLogInsert_notes rfl fun _ s₂ _ _ _ _ h₂ => ?_
    refine ⟨.disputeRefunded hdispute hstatus hrefund huser ?_, hgrows.trans h₂.grows⟩
    rw [h₂.ledger, ledger_setDispute, hledger]

theorem rejectDispute_refines (d : Option Int) (r : Option String) (a : Option Int) :
    wp (rejectDispute env d r a) (fun _ s' => s.Takes env (.rejectDispute d r a) s')
      (fun _ => True) s := by
  unfold rejectDispute
  simp only [wp_bind, wp_get, wp_require, wp_raiseIf, wp_modify, wp_pure, implies_true, true_and]
  intro dispute hdispute hstatus id hid
  subst hid
  refine auditLogInsert_notes rfl fun _ s₁ _ _ _ _ h₁ => ?_
  exact ⟨.disputeRejected hdispute hstatus h₁.ledger, h₁.grows⟩

/-! ## Cashiers and bans -/

theorem addCashierCharacter_refines (d : Option Int) (c r g f : Option String) :
    wp (addCashierCharacter env d c r g f)
      (fun _ s' => s.Takes env (.addCashierCharacter d c r g f) s') (fun _ => True) s := by
  unfold addCashierCharacter
  simp only [wp_bind, wp_get, wp_set, wp_raiseIf, wp_nextval, wp_notNull, wp_checkedText, wp_pure,
    implies_true, true_and]
  intros
  exact auditLogInsert_notes rfl fun _ s₁ _ _ _ _ h₁ => .quiet trivial h₁.ledger h₁.grows

theorem removeCashierCharacter_refines (d : Option Int) (c r g : Option String) :
    wp (removeCashierCharacter env d c r g)
      (fun _ s' => s.Takes env (.removeCashierCharacter d c r g) s') (fun _ => True) s := by
  unfold removeCashierCharacter
  simp only [wp_bind, wp_get, wp_set, wp_require, wp_pure, implies_true, true_and]
  intros
  exact auditLogInsert_notes rfl fun _ s₁ _ _ _ _ h₁ => .quiet trivial h₁.ledger h₁.grows

theorem setCashierStatus_refines (d : Option Int) (p : Option String) :
    wp (setCashierStatus env d p) (fun _ s' => s.Takes env (.setCashierStatus d p) s')
      (fun _ => True) s := by
  unfold setCashierStatus insertSession endSessions
  simp only [wp_bind, wp_get, wp_set, wp_modify, wp_raiseIf, wp_ifDo, wp_nextval, wp_notNull,
    wp_checkedText, wp_pure, implies_true, true_and]
  intro _ cashier _ _ _ status _
  refine ⟨fun _ _ => ⟨fun _ => ?_, fun _ => ?_⟩, fun _ => ⟨fun _ => ?_, fun _ => ?_⟩⟩
  all_goals
    exact auditLogInsert_notes rfl fun _ s₁ _ _ _ _ h₁ => .quiet trivial h₁.ledger h₁.grows

theorem expireCashier_refines (d : Option Int) :
    wp (expireCashier env d) (fun _ s' => s.Takes env (.expireCashier d) s') (fun _ => True) s := by
  unfold expireCashier endSessions
  simp only [wp_bind, wp_get, wp_set, wp_modify, wp_raiseIf, wp_notNull, wp_pure, implies_true,
    true_and]
  intros
  exact auditLogInsert_notes rfl fun _ s₁ _ _ _ _ h₁ => .quiet trivial h₁.ledger h₁.grows

theorem banUser_refines (u : Option Int) (r : Option String) (a : Option Int) :
    wp (banUser env u r a) (fun _ s' => s.Takes env (.banUser u r a) s') (fun _ => True) s := by
  unfold banUser
  simp only [wp_bind, wp_get, wp_set, wp_raiseIf, wp_notNull, wp_pure, implies_true, true_and]
  intro _ user _
  refine insertUser_unseen fun s₁ h₁ huser =>
    insertBalance_opens huser fun s₂ hledger _ _ hgrows => ?_
  refine auditLogInsert_notes rfl fun _ s₃ _ _ _ _ h₃ => .quiet trivial ?_ ?_
  · exact h₃.ledger.trans (hledger.trans h₁.ledger)
  · exact h₁.grows.trans (hgrows.trans ((Database.Grows.setUser s₂ user _).trans h₃.grows))

theorem unbanUser_refines (u a : Option Int) :
    wp (unbanUser env u a) (fun _ s' => s.Takes env (.unbanUser u a) s') (fun _ => True) s := by
  unfold unbanUser
  simp only [wp_bind, wp_get, wp_set, wp_raiseIf, wp_require, wp_pure, implies_true, true_and]
  intro _ user _
  refine auditLogInsert_notes rfl fun _ s₁ _ _ _ _ h₁ => .quiet trivial h₁.ledger ?_
  exact (Database.Grows.setUser s user {}).trans h₁.grows

end DeathRoll
