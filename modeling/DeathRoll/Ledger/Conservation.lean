import DeathRoll.Ledger.Lifecycle

/-! # Conservation of gold

Gold enters with confirmed deposits and leaves with confirmed withdraws and
treasury sweeps; every other call moves it between accounts. A refund returns
what the bet row says was taken, so conservation needs every open bet to
account for its amount, which `luck.apply_bet` ensures for the bets it places.
-/

namespace DeathRoll

open Relational Account
open Finsupp (single)

/-! ## What is measured -/

/-- All balances, free and locked, and all raffle pools. -/
def Database.gold (s : Database) : Int :=
  (s.balances.sum fun _ row => row.balance + row.lockedBalance) +
    s.rafflePeriods.sum fun _ row => row.poolAmount

/-- The amounts of the deposit tickets confirmed in `s'` and not in `s`. -/
def Database.newlyDeposited (s s' : Database) : Int :=
  s'.depositTickets.sum fun uid ticket =>
    if ticket.status = .confirmed ∧
        (s.depositTickets.get? uid).map Ticket.status ≠ some .confirmed then ticket.amount else 0

/-- The amounts delivered by the withdraw tickets confirmed in `s'` and not in `s`. -/
def Database.newlyDelivered (s s' : Database) : Int :=
  s'.withdrawTickets.sum fun uid ticket =>
    if ticket.status = .confirmed ∧
        (s.withdrawTickets.get? uid).map (fun old => old.status) ≠ some .confirmed then
      ticket.amountDelivered.getD 0
    else 0

/-- The amount of a treasury sweep. -/
def Call.swept : Call → Int
  | .treasurySweep amount _ _ => amount.getD 0
  | _ => 0

/-- What one step of a run sweeps out of the treasury: nothing if the sweep raises. -/
def sweptBy (taken : Database × Command) : Int :=
  match taken.2 with
  | .call env call => if call.Succeeds env taken.1 then call.swept else 0
  | .config _ => 0

/-! ## One step -/

namespace Ledger

/-- An open bet accounts for its amount: what is locked, and what the treasury
and the raffle pool took. -/
def Accounted (bet : Bet) : Prop :=
  bet.betAmount = bet.effectiveStake + max bet.commission 0 + max bet.rake 0

/-- Rates are not negative and open bets account for their amounts. -/
structure Balanced (l : Ledger) : Prop where
  commissionBps : ∀ game, 0 ≤ l.commissionBps game
  rakeBps : 0 ≤ l.rakeBps
  accounted : ∀ id bet, l.bets.get? id = some bet → bet.status = .open → Accounted bet

/-- What a deposit ticket brought into the bank. -/
def depositedBy (ticket : Ticket) : Int :=
  if ticket.status = .confirmed then ticket.amount else 0

/-- What a withdraw ticket took out of the bank. -/
def deliveredBy (ticket : WithdrawTicket) : Int :=
  if ticket.status = .confirmed then ticket.amountDelivered.getD 0 else 0

def deposited (deposits : Table String Ticket) : Int :=
  deposits.sum fun _ ticket => depositedBy ticket

def delivered (withdraws : Table String WithdrawTicket) : Int :=
  withdraws.sum fun _ ticket => deliveredBy ticket

variable {now : Timestamp} {l l' : Ledger} {call : Call}

/-- The share of a positive amount at a rate that is not negative. -/
theorem share_nonneg {amount bps : Int} (hamount : 0 < amount) (hbps : 0 ≤ bps) :
    0 ≤ (amount * bps).tdiv 10000 :=
  Int.tdiv_nonneg (mul_nonneg hamount.le hbps) (by decide)

/-- A bet placed at rates that are not negative accounts for its amount. -/
theorem accounted_of_rates {bet : Bet} (hl : l.Balanced)
    (hcommission : bet.commission = (bet.betAmount * l.commissionBps bet.gameName).tdiv 10000)
    (hrake : bet.rake = (bet.betAmount * l.rakeBps).tdiv 10000)
    (hstake : bet.effectiveStake = bet.betAmount - bet.commission - bet.rake) : Accounted bet := by
  have hcommission' : 0 ≤ bet.commission :=
    hcommission ▸ share_nonneg bet.betAmount_pos (hl.commissionBps _)
  have hrake' : 0 ≤ bet.rake := hrake ▸ share_nonneg bet.betAmount_pos hl.rakeBps
  rw [Accounted, max_eq_left hcommission', max_eq_left hrake', hstake]
  ring

theorem Step.balanced (hstep : Step now l call l') (hl : l.Balanced) : l'.Balanced := by
  obtain ⟨hcommissionBps, hrakeBps⟩ := hstep.config
  constructor
  · rw [hcommissionBps]
    exact hl.commissionBps
  · rw [hrakeBps]
    exact hl.rakeBps
  · exact hstep.open_bets (fun _ => accounted_of_rates hl) hl.accounted

theorem depositedBy_of_ne {ticket : Ticket} (hstatus : ticket.status ≠ .confirmed) :
    depositedBy ticket = 0 := if_neg hstatus

theorem deliveredBy_of_ne {ticket : WithdrawTicket} (hstatus : ticket.status ≠ .confirmed) :
    deliveredBy ticket = 0 := if_neg hstatus

/-- Replacing a ticket that was not confirmed. -/
theorem deposited_set {deposits : Table String Ticket} {uid : String} {old : Ticket}
    (hold : deposits.get? uid = some old) (hstatus : old.status ≠ .confirmed) (new : Ticket) :
    deposited (deposits.set uid new) = deposited deposits + depositedBy new := by
  refine Table.sum_set_add hold ?_
  rw [depositedBy_of_ne hstatus, zero_add]

theorem delivered_set {withdraws : Table String WithdrawTicket} {uid : String}
    {old : WithdrawTicket} (hold : withdraws.get? uid = some old)
    (hstatus : old.status ≠ .confirmed) (new : WithdrawTicket) :
    delivered (withdraws.set uid new) = delivered withdraws + deliveredBy new := by
  refine Table.sum_set_add hold ?_
  rw [deliveredBy_of_ne hstatus, zero_add]

theorem deposited_insertNew (deposits : Table String Ticket) (uid : String) {ticket : Ticket}
    (hfresh : ticket.Fresh) :
    deposited (deposits.insertNew uid ticket) = deposited deposits :=
  Table.sum_insertNew_of_zero _ _ _ _ (depositedBy_of_ne (by simp [hfresh.status]))

theorem delivered_insertNew (withdraws : Table String WithdrawTicket) (uid : String)
    {ticket : WithdrawTicket} (hfresh : ticket.Fresh) :
    delivered (withdraws.insertNew uid ticket) = delivered withdraws :=
  Table.sum_insertNew_of_zero _ _ _ _ (deliveredBy_of_ne (by simp [hfresh.status]))

theorem swept_of_quiet (hquiet : l.MayBeQuiet call) : call.swept = 0 := by
  cases call with
  | treasurySweep => exact absurd hquiet id
  | _ => rfl

/-- What enters, leaves and is swept accounts for the gold of the books. -/
theorem Step.degree (hstep : Step now l call l') (hl : l.Balanced) :
    l'.books.degree =
      l.books.degree + (deposited l'.deposits - deposited l.deposits) -
        (delivered l'.withdraws - delivered l.withdraws) - call.swept := by
  cases hstep with
  | quiet hquiet hl' =>
      subst hl'
      simp [swept_of_quiet hquiet]
  | depositOpened hnew hfresh hl' =>
      subst hl'
      simp [deposited_insertNew _ _ hfresh, Call.swept]
  | depositClaimed hold hstatus hl' =>
      subst hl'
      simp [deposited_set hold (by simp [hstatus]), depositedBy, Call.swept]
  | depositReleased hold hstatus hl' =>
      subst hl'
      simp [deposited_set hold (by simp [hstatus]), depositedBy, Call.swept]
  | depositConfirmed hold hstatus hcashier hl' =>
      subst hl'
      simp [deposited_set hold (by simp [hstatus]), depositedBy, Call.swept]
  | depositCancelled hold hstatus hl' =>
      subst hl'
      have hopen := fun hconfirmed => hstatus (.inl hconfirmed)
      simp [deposited_set hold hopen, depositedBy, Call.swept]
  | withdrawOpened hnew hfresh hdelivered hl' =>
      subst hl'
      simp [delivered_insertNew _ _ hfresh, Call.swept]
  | withdrawClaimed hold hstatus hl' =>
      subst hl'
      simp [delivered_set hold (by simp [hstatus]), deliveredBy, Call.swept]
  | withdrawReleased hold hstatus hl' =>
      subst hl'
      simp [delivered_set hold (by simp [hstatus]), deliveredBy, Call.swept]
  | withdrawConfirmed hold hstatus hcashier hl' =>
      subst hl'
      simp [delivered_set hold (by simp [hstatus]), deliveredBy, Call.swept]
      ring
  | withdrawCancelled hold hstatus hl' =>
      subst hl'
      have hopen := fun hconfirmed => hstatus (.inl hconfirmed)
      simp [delivered_set hold hopen, deliveredBy, Call.swept]
  | disputeOpened hnew hunique hstatus hl' =>
      subst hl'
      simp [Call.swept]
  | disputeRejected hdispute hstatus hl' =>
      subst hl'
      simp [Call.swept]
  | disputeDismissed hdispute hstatus haction hl' =>
      subst hl'
      simp [Call.swept]
  | disputeRefunded hdispute hstatus haction huser hl' =>
      subst hl'
      simp [Call.swept]
  | swept hl' =>
      subst hl'
      simp [Call.swept, sub_eq_add_neg]
  | treasuryPaid huser hl' =>
      subst hl'
      simp [Call.swept]
  | betPlaced hnew hopen hfirst hcommission hrake hstake hperiod hl' =>
      subst hl'
      -- what leaves the wallet is split into stake, commission and rake
      have haccounted := accounted_of_rates hl hcommission hrake hstake
      simp only [Accounted] at haccounted
      simp [Call.swept, haccounted]
      ring
  | betResolved hcall hget hopen hcredit hclosed howner hperiod hl' =>
      subst hl'
      have hswept : call.swept = 0 := by
        rcases hcall with ⟨_, rfl⟩ | ⟨_, rfl, -⟩ <;> rfl
      simp [hswept]
      ring
  | betRefunded hget hopen hclosed howner hperiod hl' =>
      subst hl'
      have haccounted := hl.accounted _ _ hget hopen
      simp only [Accounted] at haccounted
      simp [Call.swept, haccounted]
      ring

end Ledger

/-! ## Runs -/

open Ledger (deposited delivered depositedBy deliveredBy Accounted)

theorem gold_eq_degree (s : Database) : s.gold = s.ledger.books.degree := by
  have hwallets : (walletBooks s.balances).degree =
      s.balances.sum fun _ row => row.balance + row.lockedBalance := by
    simp only [walletBooks, Table.map_sum, map_add, Finsupp.degree_single]
  have hpools : (poolBooks s.rafflePeriods).degree =
      s.rafflePeriods.sum fun _ row => row.poolAmount := by
    simp only [poolBooks, Table.map_sum, Finsupp.degree_single]
  rw [Database.gold, Database.ledger, map_add, hwallets, hpools]

section Confirmed

variable {s s' : Database}

/-- Confirmed tickets stay, so the newly confirmed ones make the difference. -/
theorem newlyDeposited_eq
    (hkeep : ∀ uid ticket, s.depositTickets.get? uid = some ticket → ticket.status = .confirmed →
      s'.depositTickets.get? uid = some ticket) :
    s.newlyDeposited s' + deposited s.depositTickets = deposited s'.depositTickets := by
  refine Table.sum_add_sum fun uid => ?_
  simp only [Table.term]
  cases hold : s.depositTickets.get? uid with
  | none => simp [depositedBy]
  | some old =>
      by_cases hconfirmed : old.status = .confirmed
      · simp [hkeep uid old hold hconfirmed, hconfirmed]
      · simp [depositedBy, hconfirmed]

theorem newlyDelivered_eq
    (hkeep : ∀ uid ticket, s.withdrawTickets.get? uid = some ticket →
      ticket.status = .confirmed → s'.withdrawTickets.get? uid = some ticket) :
    s.newlyDelivered s' + delivered s.withdrawTickets = delivered s'.withdrawTickets := by
  refine Table.sum_add_sum fun uid => ?_
  simp only [Table.term]
  cases hold : s.withdrawTickets.get? uid with
  | none => simp [deliveredBy]
  | some old =>
      by_cases hconfirmed : old.status = .confirmed
      · simp [hkeep uid old hold hconfirmed, hconfirmed]
      · simp [deliveredBy, hconfirmed]

end Confirmed

/-- The gold that is not explained by confirmed tickets. -/
def Database.unexplained (s : Database) : Int :=
  s.gold - deposited s.depositTickets + delivered s.withdrawTickets

/-- One call changes the unexplained gold by what it sweeps. -/
theorem unexplained_step {s : Database} (hs : s.WellFormed) (hbalanced : s.ledger.Balanced)
    (env : Env) (call : Call) :
    (step s (.call env call)).ledger.Balanced ∧
      -(step s (.call env call)).unexplained = -s.unexplained + sweptBy (s, .call env call) := by
  rcases @ledger_step env s call hs with ⟨hok, hstep⟩ | ⟨hfail, hsame⟩
  · refine ⟨hstep.balanced hbalanced, ?_⟩
    have hdegree := hstep.degree hbalanced
    have hdeposits : ∀ t : Database, t.ledger.deposits = t.depositTickets := fun _ => rfl
    have hwithdraws : ∀ t : Database, t.ledger.withdraws = t.withdrawTickets := fun _ => rfl
    simp only [hdeposits, hwithdraws] at hdegree
    simp only [Database.unexplained, gold_eq_degree, sweptBy, if_pos hok, hdegree]
    ring
  · refine ⟨hsame ▸ hbalanced, ?_⟩
    have hdeposits : (step s (.call env call)).depositTickets = s.depositTickets :=
      congrArg Ledger.deposits hsame
    have hwithdraws : (step s (.call env call)).withdrawTickets = s.withdrawTickets :=
      congrArg Ledger.withdraws hsame
    simp only [Database.unexplained, gold_eq_degree, sweptBy, if_neg hfail, hsame, hdeposits,
      hwithdraws, add_zero]

/-- Over a run of calls the gold in balances, locked balances and raffle pools
changes by the deposits that became confirmed, minus what the withdraws that
became confirmed delivered, minus what was swept from the treasury. -/
theorem gold_conserved {s : Database} (hs : s.WellFormed)
    (hcommission : ∀ game, 0 ≤ commissionBpsOf s.gameConfig game) (hrake : 0 ≤ s.rakeBps)
    (hbets : ∀ id bet, s.bets.get? id = some bet → bet.status = .open → Accounted bet)
    (commands : List Command)
    (hcalls : ∀ command ∈ commands, ∃ env call, command = .call env call) :
    (run step s commands).gold =
      s.gold + s.newlyDeposited (run step s commands) - s.newlyDelivered (run step s commands) -
        ((steps step s commands).map sweptBy).sum := by
  have haccount : -(run step s commands).unexplained =
      -s.unexplained + ((steps step s commands).map sweptBy).sum :=
    run_accounts (fun s => -s.unexplained) (fun s command => sweptBy (s, command))
    (fun s command hcall (hs : s.WellFormed ∧ s.ledger.Balanced) => by
      obtain ⟨env, call, rfl⟩ := hcall
      exact ⟨wellFormed_step hs.1 _, (unexplained_step hs.1 hs.2 env call).1⟩)
    (fun s command hcall hs => by
      obtain ⟨env, call, rfl⟩ := hcall
      exact (unexplained_step hs.1 hs.2 env call).2)
    ⟨hs, hcommission, hrake, hbets⟩ hcalls
  have hdeposited : s.newlyDeposited (run step s commands) + deposited s.depositTickets =
      deposited (run step s commands).depositTickets :=
    newlyDeposited_eq fun uid ticket hticket hconfirmed =>
      ticketOf_final .deposit hs (.inl hconfirmed) hticket commands
  have hdelivered : s.newlyDelivered (run step s commands) + delivered s.withdrawTickets =
      delivered (run step s commands).withdrawTickets :=
    newlyDelivered_eq fun uid ticket hticket hconfirmed =>
      withdraw_final hs (.inl hconfirmed) hticket commands
  simp only [Database.unexplained] at haccount
  omega

theorem gold_conserved_seeded :
    (run step .seeded depositRun).gold =
      Database.seeded.gold + Database.seeded.newlyDeposited (run step .seeded depositRun) -
        Database.seeded.newlyDelivered (run step .seeded depositRun) -
          ((steps step .seeded depositRun).map sweptBy).sum :=
  gold_conserved seeded_empty.wellFormed seeded_commission (by decide)
    (fun _ _ hbet _ => by simp [Database.seeded] at hbet) depositRun (by simp [depositRun])

theorem legacyAmount_pos : (0 : Int) < 100 := by decide

/-- An open bet from before the resolution columns existed: they hold their
default 0. -/
def legacyBet : Bet :=
  { betUid := "bet-1", discordId := 9, gameName := "dice", channelId := 1, betAmount := 100
    selection := .null, status := .open, serverSeedHash := [], clientSeed := "seed", nonce := 0
    idempotencyKey := "key-1", placedAt := 0, betAmount_pos := legacyAmount_pos
    payoutAmount_nonneg := zero_nonneg }

def legacyState : Database :=
  { Database.seeded with
    users := .ofList [(0, {}), (9, {})]
    balances := .ofList [(0, .zero), (9,
      ⟨{ totalWagered := 100 }, by decide, by decide, by decide, by decide, by decide⟩)]
    bets := .ofList [(1, legacyBet)] }

/-- Refunding a bet whose row records no stake, commission or rake creates gold. -/
theorem legacy_refund_mints :
    legacyState.WellFormed ∧ (∀ game, 0 ≤ commissionBpsOf legacyState.gameConfig game) ∧
      0 ≤ legacyState.rakeBps ∧
      ¬ (run step legacyState [.call .plain (.refundBet (some 1) none)]).gold =
        legacyState.gold +
          legacyState.newlyDeposited
            (run step legacyState [.call .plain (.refundBet (some 1) none)]) -
          legacyState.newlyDelivered
            (run step legacyState [.call .plain (.refundBet (some 1) none)]) -
          ((steps step legacyState [.call .plain (.refundBet (some 1) none)]).map sweptBy).sum := by
  refine ⟨⟨by decide, fun u hu => ?_, fun id bet p hbet hperiod => ?_⟩, seeded_commission,
    by decide, by decide⟩
  · simp only [Database.HasAccount, Database.HasUser, legacyState, Table.ofList, List.foldl_cons,
      List.foldl_nil, Table.get?_insertNew, Table.get?_empty] at hu ⊢
    split_ifs at hu ⊢ <;> simp_all
  have hrow := Table.get?_eq_some.mp hbet
  simp only [legacyState, Table.ofList, List.foldl_cons, List.foldl_nil] at hrow
  obtain ⟨-, rfl⟩ : id = 1 ∧ bet = legacyBet := by
    simpa [Table.insertNew, Table.empty] using hrow
  cases hperiod

end DeathRoll
