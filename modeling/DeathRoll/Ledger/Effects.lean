import DeathRoll.Ledger.Abstract

/-! # The ledger of a database

The abstraction map, and what each statement of the ledger functions does to
the abstract ledger. A statement rule hands its caller the state after the
statement together with that state's ledger, so a caller never looks at the
tables again.
-/

namespace DeathRoll

open Relational Tx Account
open Finsupp (single)

/-! ## Abstraction -/

/-- The gold of the users, in their wallets and locked. -/
noncomputable def walletBooks (balances : Table Int Balance) : Account →₀ ℤ :=
  balances.sum fun discordId row =>
    single (wallet discordId) row.balance + single (locked discordId) row.lockedBalance

/-- The gold of the raffle pools. -/
noncomputable def poolBooks (periods : Table Int RafflePeriod) : Account →₀ ℤ :=
  periods.sum fun period row => single (pool period) row.poolAmount

/-- The change an audit row records for its target. -/
noncomputable def AuditContent.recorded (content : AuditContent) : ℤ →₀ ℤ :=
  single content.targetId (content.balanceAfter - content.balanceBefore)

noncomputable def auditedBy (log : List AuditRow) : ℤ →₀ ℤ :=
  (log.map fun row => row.content.recorded).sum

/-- `extra_config->>'commission_bps'` of a game, 0 where it is absent. -/
def commissionBpsOf (gameConfig : Table String GameConfig) (game : String) : Int :=
  ((gameConfig.get? game).bind GameConfig.commissionBps).getD 0

noncomputable def Database.ledger (s : Database) : Ledger where
  books := walletBooks s.balances + poolBooks s.rafflePeriods
  audited := auditedBy s.audit.auditLog
  deposits := s.depositTickets
  withdraws := s.withdrawTickets
  disputes := s.disputes
  bets := s.bets
  commissionBps := commissionBpsOf s.gameConfig
  rakeBps := s.rakeBps
  activePeriod := s.activePeriod

def Database.HasAccount (s : Database) (discordId : Int) : Prop :=
  s.balances.get? discordId ≠ none

instance (s : Database) (discordId : Int) : Decidable (s.HasAccount discordId) :=
  inferInstanceAs (Decidable (_ ≠ _))

def Database.HasPeriod (s : Database) (period : Int) : Prop :=
  s.rafflePeriods.get? period ≠ none

def Database.HasUser (s : Database) (discordId : Int) : Prop :=
  s.users.get? discordId ≠ none

/-- Users, accounts and raffle periods are never deleted, and a new account
belongs to a registered user. -/
def Database.Grows (s s' : Database) : Prop :=
  (∀ discordId, s.HasAccount discordId → s'.HasAccount discordId) ∧
    (∀ period, s.HasPeriod period → s'.HasPeriod period) ∧
      (∀ discordId, s.HasUser discordId → s'.HasUser discordId) ∧
        ∀ discordId, s'.HasAccount discordId → s.HasAccount discordId ∨ s'.HasUser discordId

namespace Database.Grows

variable {s s' s'' : Database}

theorem accounts (h : s.Grows s') {u : Int} (hu : s.HasAccount u) : s'.HasAccount u := h.1 u hu

theorem periods (h : s.Grows s') {p : Int} (hp : s.HasPeriod p) : s'.HasPeriod p := h.2.1 p hp

theorem users (h : s.Grows s') {u : Int} (hu : s.HasUser u) : s'.HasUser u := h.2.2.1 u hu

theorem registered (h : s.Grows s') {u : Int} (hu : s'.HasAccount u) :
    s.HasAccount u ∨ s'.HasUser u := h.2.2.2 u hu

theorem refl (s : Database) : s.Grows s := ⟨fun _ => id, fun _ => id, fun _ => id, fun _ => .inl⟩

theorem trans (hfirst : s.Grows s') (hsecond : s'.Grows s'') : s.Grows s'' := by
  refine ⟨fun _ hu => hsecond.accounts (hfirst.accounts hu),
    fun _ hp => hsecond.periods (hfirst.periods hp),
    fun _ hu => hsecond.users (hfirst.users hu), fun u hu => ?_⟩
  rcases hsecond.registered hu with hmiddle | huser
  · exact (hfirst.registered hmiddle).imp id hsecond.users
  · exact .inr huser

/-- The reference of `core.balances` to `core.users` is kept. -/
theorem keepsRegistered (h : s.Grows s') (hs : ∀ u, s.HasAccount u → s.HasUser u) :
    ∀ u, s'.HasAccount u → s'.HasUser u :=
  fun u hu => (h.registered hu).elim (fun hold => h.users (hs u hold)) id

theorem setUser (s : Database) (u : Int) (row : User) : s.Grows (s.setUser u row) := by
  refine ⟨fun _ => id, fun _ => id, fun v hv => ?_, fun _ => .inl⟩
  simp only [HasUser, setUser_users, Table.get?_set] at hv ⊢
  split <;> simp_all

end Database.Grows

/-! ## Books -/

variable {balances : Table Int Balance} {periods : Table Int RafflePeriod}

theorem walletBooks_set {u : Int} {old : Balance} (new : Balance) (hold : balances.get? u = some old) :
    walletBooks (balances.set u new) = walletBooks balances +
      (single (wallet u) (new.balance - old.balance) +
        single (locked u) (new.lockedBalance - old.lockedBalance)) := by
  refine Table.sum_set_add hold ?_
  simp only [Finsupp.single_sub]
  abel

theorem walletBooks_insertNew (u : Int) :
    walletBooks (balances.insertNew u .zero) = walletBooks balances := by
  refine Table.sum_insertNew_of_zero _ _ _ _ ?_
  simp [Balance.zero]

theorem poolBooks_set {p : Int} {old : RafflePeriod} (new : RafflePeriod) (hold : periods.get? p = some old) :
    poolBooks (periods.set p new) = poolBooks periods +
      single (pool p) (new.poolAmount - old.poolAmount) := by
  refine Table.sum_set_add hold ?_
  simp only [Finsupp.single_sub]
  abel

theorem auditedBy_append (log : List AuditRow) (row : AuditRow) :
    auditedBy (log ++ [row]) = auditedBy log + row.content.recorded := by
  simp [auditedBy]

/-- The balance of an account, 0 without one. -/
def Database.balanceOf (s : Database) (discordId : Int) : Int :=
  (s.balance? (some discordId)).getD 0

/-- The locked balance of an account, 0 without one. -/
def Database.lockedOf (s : Database) (discordId : Int) : Int :=
  (s.lockedBalance? (some discordId)).getD 0

theorem balanceOf_of_get? {s : Database} {u : Int} {row : Balance}
    (hrow : s.balances.get? u = some row) : s.balanceOf u = row.balance := by
  simp [Database.balanceOf, Database.balance?, hrow]

theorem lockedOf_of_get? {s : Database} {u : Int} {row : Balance}
    (hrow : s.balances.get? u = some row) : s.lockedOf u = row.lockedBalance := by
  simp [Database.lockedOf, Database.lockedBalance?, hrow]

/-- The free gold of a user on the books. -/
theorem ledger_books_wallet (s : Database) (u : Int) :
    s.ledger.books (wallet u) = s.balanceOf u := by
  have hpools : poolBooks s.rafflePeriods (wallet u) = 0 := by
    rw [poolBooks, Table.sum_apply]
    simp [Table.sum]
  have hwallets : walletBooks s.balances (wallet u) = s.balanceOf u := by
    rw [walletBooks, Table.sum_apply, Table.sum_eq_term _ _ u]
    · cases hrow : s.balances.get? u with
      | none => simp [Table.term, hrow, Database.balanceOf, Database.balance?]
      | some row => simp [Table.term, hrow, balanceOf_of_get? hrow]
    · intro v row _ hv
      simp [hv]
  rw [Database.ledger, Finsupp.add_apply, hpools, hwallets, add_zero]

/-- The locked gold of a user on the books. -/
theorem ledger_books_locked (s : Database) (u : Int) :
    s.ledger.books (locked u) = s.lockedOf u := by
  have hpools : poolBooks s.rafflePeriods (locked u) = 0 := by
    rw [poolBooks, Table.sum_apply]
    simp [Table.sum]
  have hwallets : walletBooks s.balances (locked u) = s.lockedOf u := by
    rw [walletBooks, Table.sum_apply, Table.sum_eq_term _ _ u]
    · cases hrow : s.balances.get? u with
      | none => simp [Table.term, hrow, Database.lockedOf, Database.lockedBalance?]
      | some row => simp [Table.term, hrow, lockedOf_of_get? hrow]
    · intro v row _ hv
      simp [hv]
  rw [Database.ledger, Finsupp.add_apply, hpools, hwallets, add_zero]

/-- The active period is determined by the statuses. -/
theorem activePeriod_setPeriod {s : Database} {p : Int} {old new : RafflePeriod}
    (hold : s.rafflePeriods.get? p = some old) (hstatus : new.status = old.status) :
    (s.setPeriod p new).activePeriod = s.activePeriod := by
  have hkeys : ∀ rows : List (Int × RafflePeriod), (∀ row ∈ rows, row.1 = p → row.2 = old) →
      ((rows.map fun row => if row.1 = p then (row.1, new) else row).filter
          fun row => row.2.status = .active).map Prod.fst =
        (rows.filter fun row => row.2.status = .active).map Prod.fst := by
    intro rows hrows
    induction rows with
    | nil => rfl
    | cons row rest ih =>
        have hrest := ih fun later hlater => hrows later (List.mem_cons_of_mem row hlater)
        have hrow := hrows row List.mem_cons_self
        by_cases hp : row.1 = p
        · by_cases hactive : old.status = .active <;> simp_all
        · by_cases hactive : row.2.status = .active <;> simp_all
  simp only [Database.activePeriod, Database.setPeriod_rafflePeriods, Table.set]
  rw [hkeys]
  rintro ⟨key, row⟩ hmem hkey
  have hget := Table.get?_eq_some.mpr hmem
  simp only at hkey ⊢
  rw [hkey, hold] at hget
  exact (Option.some.inj hget).symm

/-! ## Statements -/

section Rules

variable {s : Database}

/-- From `s` to `s'` the tables that the ledger sees are the same. -/
structure Database.Unseen (s s' : Database) : Prop where
  ledger : s'.ledger = s.ledger
  balances : s'.balances = s.balances
  grows : s.Grows s'

/-- From `s` to `s'` the row of `u`, if there is one, moved by `posted`. -/
structure Database.Posted (s : Database) (u : Int) (posted : Account →₀ ℤ) (s' : Database) :
    Prop where
  ledger : s.HasAccount u → s'.ledger = { s.ledger with books := s.ledger.books + posted }
  other : ∀ v, v ≠ u → s'.balances.get? v = s.balances.get? v
  grows : s.Grows s'

/-- From `s` to `s'` the pool of `p`, if the period exists, moved by `posted`. -/
structure Database.Pooled (s : Database) (p : Int) (posted : Account →₀ ℤ) (s' : Database) :
    Prop where
  ledger : s.HasPeriod p → s'.ledger = { s.ledger with books := s.ledger.books + posted }
  balances : s'.balances = s.balances
  grows : s.Grows s'

/-- From `s` to `s'` an audit row recorded `change` for `target`. -/
structure Database.Recorded (s : Database) (target change : Int) (s' : Database) : Prop where
  ledger : s'.ledger = { s.ledger with audited := s.ledger.audited + single target change }
  balances : s'.balances = s.balances
  grows : s.Grows s'

@[simp] theorem ledger_advance (name : SequenceName) : (s.advance name).ledger = s.ledger := rfl

@[simp] theorem ledger_setDeposit (uid : String) (ticket : Ticket) :
    (s.setDeposit uid ticket).ledger =
      { s.ledger with deposits := s.ledger.deposits.set uid ticket } := rfl

@[simp] theorem ledger_addDeposit (uid : String) (ticket : Ticket) :
    (s.addDeposit uid ticket).ledger =
      { s.ledger with deposits := s.ledger.deposits.insertNew uid ticket } := rfl

@[simp] theorem ledger_setWithdraw (uid : String) (ticket : WithdrawTicket) :
    (s.setWithdraw uid ticket).ledger =
      { s.ledger with withdraws := s.ledger.withdraws.set uid ticket } := rfl

@[simp] theorem ledger_addWithdraw (uid : String) (ticket : WithdrawTicket) :
    (s.addWithdraw uid ticket).ledger =
      { s.ledger with withdraws := s.ledger.withdraws.insertNew uid ticket } := rfl

@[simp] theorem ledger_setDispute (id : Int) (dispute : Dispute) :
    (s.setDispute id dispute).ledger =
      { s.ledger with disputes := s.ledger.disputes.set id dispute } := rfl

@[simp] theorem ledger_setBet (id : Int) (bet : Bet) :
    (s.setBet id bet).ledger = { s.ledger with bets := s.ledger.bets.set id bet } := rfl

@[simp] theorem ledger_addBet (id : Int) (bet : Bet) :
    (s.addBet id bet).ledger = { s.ledger with bets := s.ledger.bets.insertNew id bet } := rfl

theorem updateBalance_posts {post : Unit → Database → Prop} {u : Int}
    {assign : BalanceRow → BalanceRow} (posted : Account →₀ ℤ)
    (hposted : ∀ old : Balance, s.balances.get? u = some old →
      single (wallet u) ((assign old.toBalanceRow).balance - old.balance) +
        single (locked u) ((assign old.toBalanceRow).lockedBalance - old.lockedBalance) = posted)
    (hpost : ∀ s', s.Posted u posted s' → post () s') :
    wp (updateBalance u assign) post (fun _ => True) s := by
  refine (wp_updateBalance u assign).mpr ⟨fun hnone => ?_, fun old hold => ⟨by simp, ?_⟩⟩
  · exact hpost s ⟨fun haccount => absurd hnone haccount, fun _ _ => rfl, .refl s⟩
  · intro new hnew
    have haccount : ∀ v, (s.setBalance u new).HasAccount v ↔ s.HasAccount v := by
      intro v
      simp only [Database.HasAccount, Database.setBalance_balances, Table.get?_set]
      split <;> simp_all
    refine hpost _ ⟨fun _ => ?_, fun v hv => Table.get?_set_of_ne _ hv new,
      ⟨fun v => (haccount v).mpr, fun _ => id, fun _ => id, fun v hv => .inl ((haccount v).mp hv)⟩⟩
    · have hbooks := walletBooks_set new hold
      rw [hnew, hposted old hold] at hbooks
      simp only [Database.ledger, Database.setBalance_balances, hbooks]
      rw [add_right_comm]
      rfl

/-- A conditional update posts nothing when its condition fails. -/
theorem ifDo_updateBalance_posts {post : Unit → Database → Prop} {c : Prop} [Decidable c] {u : Int}
    {assign : BalanceRow → BalanceRow} (posted : Account →₀ ℤ)
    (hposted : c → ∀ old : Balance, s.balances.get? u = some old →
      single (wallet u) ((assign old.toBalanceRow).balance - old.balance) +
        single (locked u) ((assign old.toBalanceRow).lockedBalance - old.lockedBalance) = posted)
    (hnone : ¬ c → posted = 0) (hpost : ∀ s', s.Posted u posted s' → post () s') :
    wp (ifDo c (updateBalance u assign)) post (fun _ => True) s := by
  refine (wp_ifDo c _).mpr ⟨fun hc => updateBalance_posts posted (hposted hc) hpost, fun hc => ?_⟩
  refine hpost s ⟨fun _ => ?_, fun _ _ => rfl, .refl s⟩
  rw [hnone hc, add_zero]

theorem ifDo_addToPool_posts {post : Unit → Database → Prop} {c : Prop} [Decidable c]
    {p amount : Int} (posted : Account →₀ ℤ) (hposted : c → single (pool p) amount = posted)
    (hnone : ¬ c → posted = 0) (hpost : ∀ s', s.Pooled p posted s' → post () s') :
    wp (ifDo c (addToPool p amount)) post (fun _ => True) s := by
  refine (wp_ifDo c _).mpr ⟨fun hc => ?_, fun hc => ?_⟩
  · refine (wp_addToPool p amount).mpr ⟨fun hperiod => ?_, fun old hold => ⟨by simp, by simp, ?_⟩⟩
    · exact hpost s ⟨fun hhas => absurd hperiod hhas, rfl, .refl s⟩
    · intro new hnew hstatus
      refine hpost _ ⟨fun _ => ?_, rfl, ⟨fun _ => id, fun q hq => ?_, fun _ => id, fun _ => .inl⟩⟩
      · have hbooks := poolBooks_set new hold
        rw [hnew, add_sub_cancel_left, hposted hc] at hbooks
        simp only [Database.ledger, activePeriod_setPeriod hold hstatus,
          Database.setPeriod_rafflePeriods, hbooks, ← add_assoc]
        rfl
      · simp only [Database.HasPeriod, Database.setPeriod_rafflePeriods, Table.get?_set] at hq ⊢
        split <;> simp_all
  · refine hpost s ⟨fun _ => ?_, rfl, .refl s⟩
    rw [hnone hc, add_zero]

theorem auditLogInsert_records {post : Int → Database → Prop} {env : Env} {actorType : ActorType}
    {actorId targetId : Option Int} {action : Option String}
    {amount balanceBefore balanceAfter : Option Int} {reason refType refId : Option String}
    {botName : String} {metadata : Json}
    (hpost : ∀ id s' actor target text before after, actorId = some actor →
      targetId = some target → action = some text → balanceBefore = some before →
      balanceAfter = some after → s.Recorded target (after - before) s' → post id s') :
    wp (auditLogInsertWithChain env
        ⟨actorType, actorId, targetId, action, amount, balanceBefore, balanceAfter, reason, refType,
          refId, botName, metadata⟩)
      post (fun _ => True) s := by
  rw [wp_auditLogInsertWithChain]
  refine ⟨by simp, fun key _ => ⟨by simp, fun actor hactor => ⟨by simp, fun target htarget =>
    ⟨by simp, fun text htext => ⟨by simp, fun before hbefore => ⟨by simp, fun after hafter =>
    ⟨by simp, fun ref _ => ⟨by simp, fun _ => ?_⟩⟩⟩⟩⟩⟩⟩⟩
  refine hpost _ _ actor target text before after hactor htarget htext hbefore hafter
    ⟨?_, rfl, .refl s⟩
  simp only [Database.ledger, Database.withAudit_audit, AuditStore.insertWithChain,
    auditedBy_append]
  rfl

/-- An audit row with equal balances records nothing. -/
theorem auditLogInsert_notes {post : Int → Database → Prop} {env : Env} {actorType : ActorType}
    {actorId targetId : Option Int} {action : Option String}
    {amount balanceBefore balanceAfter : Option Int} {reason refType refId : Option String}
    {botName : String} {metadata : Json} (hsame : balanceBefore = balanceAfter)
    (hpost : ∀ id s' actor text, actorId = some actor → action = some text → s.Unseen s' →
      post id s') :
    wp (auditLogInsertWithChain env
        ⟨actorType, actorId, targetId, action, amount, balanceBefore, balanceAfter, reason, refType,
          refId, botName, metadata⟩)
      post (fun _ => True) s := by
  refine auditLogInsert_records
    fun id s' actor target text before after hactor _ htext hbefore hafter hrecorded => ?_
  obtain rfl := Option.some.inj (hbefore.symm.trans (hsame.trans hafter))
  refine hpost id s' actor text hactor htext ⟨?_, hrecorded.balances, hrecorded.grows⟩
  rw [hrecorded.ledger]
  simp

theorem insertUser_unseen {post : Unit → Database → Prop} {u : Int}
    (hpost : ∀ s', s.Unseen s' → s'.HasUser u → post () s') :
    wp (insertUser u) post (fun _ => True) s := by
  refine hpost (s.addUser u {}) ⟨rfl, rfl, ⟨fun _ => id, fun _ => id, fun v hv => ?_, fun _ => .inl⟩⟩ ?_
  · simp only [Database.HasUser, Database.addUser_users, Table.get?_insertNew] at hv ⊢
    split <;> simp_all
  · simp [Database.HasUser, Table.get?_insertNew]

/-- A user's row is created with nothing in it. -/
theorem insertBalance_opens {post : Unit → Database → Prop} {u : Int} (huser : s.HasUser u)
    (hpost : ∀ s', s'.ledger = s.ledger → s'.HasAccount u →
      (∀ v, v ≠ u → s'.balances.get? v = s.balances.get? v) → s.Grows s' → post () s') :
    wp (insertBalance u) post (fun _ => True) s := by
  refine hpost (s.addBalance u .zero) ?_ ?_ (fun v hv => Table.get?_insertNew_of_ne _ hv _)
    ⟨fun v hv => ?_, fun _ => id, fun _ => id, fun v hv => ?_⟩
  · simp only [Database.ledger, Database.addBalance_balances, walletBooks_insertNew]
    rfl
  · simp [Database.HasAccount, Table.get?_insertNew]
  · simp only [Database.HasAccount, Database.addBalance_balances, Table.get?_insertNew] at hv ⊢
    split <;> simp_all
  · by_cases hv' : v = u
    · exact .inr (hv' ▸ huser)
    · simp only [Database.HasAccount, Database.addBalance_balances,
        Table.get?_insertNew_of_ne _ hv'] at hv
      exact .inl hv

theorem upsertCashierStats_unseen {post : Unit → Database → Prop} {cashier : Int}
    {add : CashierStatsRow → CashierStatsRow} (hpost : ∀ s', s.Unseen s' → post () s') :
    wp (upsertCashierStats cashier add) post (fun _ => True) s := by
  rw [wp_upsertCashierStats]
  exact ⟨fun _ _ => hpost _ ⟨rfl, rfl, .refl s⟩, fun _ => trivial⟩

end Rules

end DeathRoll
