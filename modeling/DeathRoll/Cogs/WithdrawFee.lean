import DeathRoll.Cogs.Embeds
import DeathRoll.Cogs.SetLimits
import DeathRoll.Dw.ModalInput

/-! # The withdraw fee

The slash command bounds the rate, the modal bounds the amount, and
`dw.create_withdraw_ticket` multiplies the two in 64 bits before it divides. The bounds do
not keep the product in range.
-/

namespace DeathRoll

open Relational Tx Text

/-! ## The rate -/

/-- The reply with which `set_fee_withdraw_cmd` returns before it writes. -/
def refuseFee (poolReady : Bool) (bps : Int) : Option String :=
  if ¬ poolReady then some "Bot is still starting up — try again in a few seconds."
  else if bps < 0 ∨ bps > 10000 then
    some ("❌ Bps must be 0-10000 (got " ++ toString bps ++ ").")
  else none

/-- `f"{bps / 100:.2f}"`, for what the command accepts. -/
def percentText (bps : Int) : String :=
  let cents := toString (bps % 100)
  toString (bps / 100) ++ "." ++ (if bps % 100 < 10 then "0" ++ cents else cents)

/-- `set_fee_withdraw_cmd`. -/
def setFeeWithdraw (s : Database) (poolReady : Bool) (bps : Int) : String × Database :=
  match refuseFee poolReady bps with
  | some text => (text, s)
  | none =>
      ("✅ `withdraw_fee_bps` = `" ++ toString bps ++ "` (" ++ percentText bps ++ "%).",
        { s with dwConfig := persistConfigInt s.dwConfig "withdraw_fee_bps" bps })

/-! ## A withdraw from the modal -/

/-- What the modal's callback hands to `dw.create_withdraw_ticket`. -/
structure WithdrawOrder where
  discordId : Int
  payload : WithdrawModalInput
  threadId : Int
  parentChannelId : Int

def WithdrawOrder.call (order : WithdrawOrder) : Call :=
  .createWithdrawTicket (some order.discordId) (some order.payload.charName)
    (some order.payload.realm) (some order.payload.region.text)
    (some order.payload.faction.text) (some order.payload.amount) (some order.threadId)
    (some order.parentChannelId)

/-- The `ticket_uid` that the next withdraw gets. -/
def Database.nextWithdraw (s : Database) : String :=
  "withdraw-" ++ toString (s.sequences .withdrawTickets + 1)

/-- Everything that `dw.create_withdraw_ticket` checks of an order but its fee. -/
structure Database.Admits (s : Database) (env : Env) (order : WithdrawOrder) : Prop where
  limits : ∃ vMin vMax, s.dwInt "min_withdraw_g" = some vMin ∧
    s.dwInt "max_withdraw_g" = some vMax ∧ vMin ≤ order.payload.amount ∧
    order.payload.amount ≤ vMax
  expiry : s.dwInt "ticket_expiry_open_s" ≠ none
  user : ∃ row, s.users.get? order.discordId = some row ∧ row.banned = false
  funds : ∃ row, s.balances.get? order.discordId = some row ∧
    order.payload.amount ≤ row.balance ∧ InBigint (row.lockedBalance + order.payload.amount)
  freshId : ¬ s.withdrawTickets.any fun _ other => other.id = s.sequences .withdrawTickets + 2
  freshUid : s.withdrawTickets.get? s.nextWithdraw = none
  freshThread : ¬ s.withdrawTickets.any fun _ other => other.threadId = order.threadId
  chainKey : ∃ key, env.chainKey = .ok key

/-- A confirmation from `s` to `s'` pays out what the ticket says. -/
structure Database.PaysOut (s s' : Database) (uid : String) (amount fee : Int) : Prop where
  delivered : ∃ w, s'.withdrawTickets.get? uid = some w ∧ w.status = .confirmed ∧
    w.amountDelivered = some (amount - fee)
  delivered_nonneg : 0 ≤ amount - fee
  credited : s'.balanceOf 0 = s.balanceOf 0 + fee
  total : fee + (amount - fee) = amount

/-- The order's ticket carries the exact fee, and its confirmation, whenever it comes,
delivers the rest and credits the treasury with the fee. -/
structure Database.ChargesExactly (s : Database) (env : Env) (order : WithdrawOrder)
    (bps : Int) : Prop where
  opens : ∃ w, (step s (.call env order.call)).withdrawTickets.get? s.nextWithdraw = some w ∧
    w.amount = order.payload.amount ∧ w.fee = order.payload.amount * bps / 10000
  fee_nonneg : 0 ≤ order.payload.amount * bps / 10000
  fee_le : order.payload.amount * bps / 10000 ≤ order.payload.amount
  paysOut : ∀ (later : List Command) (env' : Env) (cashier : Option Int) (w : WithdrawTicket),
    (run step s (.call env order.call :: later)).withdrawTickets.get? s.nextWithdraw = some w →
    w.status = .claimed →
    (Call.confirmWithdraw (some s.nextWithdraw) cashier).Succeeds env'
      (run step s (.call env order.call :: later)) →
    (run step s (.call env order.call :: later)).PaysOut
      (run step s (.call env order.call :: later ++
        [.call env' (.confirmWithdraw (some s.nextWithdraw) cashier)]))
      s.nextWithdraw order.payload.amount (order.payload.amount * bps / 10000)

variable {s : Database} {env : Env} {order : WithdrawOrder} {bps : Int}

/-! ## The command writes what it accepts -/

theorem setFeeWithdraw_accepted (haccepted : refuseFee true bps = none) :
    (setFeeWithdraw s true bps).2 = step s (.config (.dwConfig "withdraw_fee_bps" (some bps))) ∧
      (setFeeWithdraw s true bps).2.dwInt "withdraw_fee_bps" = some bps := by
  have hwrite : (setFeeWithdraw s true bps).2 =
      { s with dwConfig := persistConfigInt s.dwConfig "withdraw_fee_bps" bps } := by
    rw [setFeeWithdraw, haccepted]
  refine ⟨hwrite, ?_⟩
  rw [hwrite]
  exact (configInt_persist s.dwConfig "withdraw_fee_bps" "withdraw_fee_bps" bps).trans (if_pos rfl)

theorem rate_of_accepted (haccepted : refuseFee true bps = none) : 0 ≤ bps ∧ bps ≤ 10000 := by
  unfold refuseFee at haccepted
  split_ifs at haccepted with _ hrange
  omega

/-! ## Opening the ticket -/

theorem openTicket_returns {post : Ticket → Database → Prop} {table : String}
    {sequence : SequenceName} {vExpires : Timestamp} (hpos : 0 < order.payload.amount)
    (hpost : ∀ ticket : Ticket, ticket.id = s.sequences sequence + 1 →
      ticket.discordId = order.discordId → ticket.threadId = order.threadId →
      post ticket (s.advance sequence)) :
    wp (openTicket env table sequence (some order.discordId) (some order.payload.charName)
      (some order.payload.realm) (some order.payload.region.text)
      (some order.payload.faction.text) (some order.payload.amount) (some order.threadId)
      (some order.parentChannelId) vExpires) post (fun _ => False) s := by
  unfold openTicket
  simp only [wp_bind, wp_nextval, wp_notNull, wp_checkedText, wp_dite, wp_pure, wp_throw,
    Option.some.injEq, forall_eq', reduceCtorEq, true_and, hpos, not_true_eq_false,
    IsEmpty.forall_iff, and_true, Region.ofText_text, Faction.ofText_text]
  intro _
  exact hpost _ rfl rfl rfl

theorem insertWithdraw_returns {post : Unit → Database → Prop} {uid : String} {ticket : Ticket}
    {fee : Int} (hid : ¬ s.withdrawTickets.any fun _ other => other.id = ticket.id)
    (huid : s.withdrawTickets.get? uid = none)
    (hthread : ¬ s.withdrawTickets.any fun _ other => other.threadId = ticket.threadId)
    (huser : s.users.get? ticket.discordId ≠ none) (hfee : 0 ≤ fee)
    (hpost : ∀ w, post () (s.addWithdraw uid w)) :
    wp (insertWithdraw uid ticket fee) post (fun _ => False) s := by
  unfold insertWithdraw
  simp only [wp_bind, wp_get, wp_raiseIf, wp_dite, wp_set, wp_throw]
  exact ⟨hid, fun _ => ⟨fun hused => hused huid, fun _ => ⟨hthread, fun _ => ⟨huser, fun _ =>
    ⟨fun _ => hpost _, fun hneg => hneg hfee⟩⟩⟩⟩⟩

/-- An order that is admitted goes through when the product of amount and rate is in range. -/
theorem createWithdraw_returns (hpos : 0 < order.payload.amount) (hadmits : s.Admits env order)
    (hrate : s.dwInt "withdraw_fee_bps" = some bps) (hbps : 0 ≤ bps)
    (hfits : order.payload.amount * bps < 2 ^ 63) : order.call.Succeeds env s := by
  obtain ⟨vMin, vMax, hmin, hmax, hlow, hhigh⟩ := hadmits.limits
  obtain ⟨vTtlS, httl⟩ := Option.ne_none_iff_exists'.mp hadmits.expiry
  obtain ⟨user, huser, hbanned⟩ := hadmits.user
  obtain ⟨row, hrow, hfunds, hroom⟩ := hadmits.funds
  obtain ⟨key, hkey⟩ := hadmits.chainKey
  have hbalance : s.balance? (some order.discordId) = some row.balance := by
    simp [Database.balance?, hrow]
  have hproduct : 0 ≤ order.payload.amount * bps := mul_nonneg hpos.le hbps
  have hrange : InBigint (order.payload.amount * bps) := ⟨by omega, hfits⟩
  have hregistered : s.users.get? order.discordId ≠ none := huser ▸ Option.some_ne_none user
  apply succeeds_of_wp
  unfold WithdrawOrder.call callBody createWithdrawTicket
  simp only [wp_bind, wp_get, wp_require, wp_raiseIf, wp_nextval, wp_notNull, wp_nullableBigint,
    wp_pure, hmin, hmax, hrate, httl, huser, hbanned, Table.select_some, Option.map_some,
    Option.some.injEq, forall_eq', reduceCtorEq, false_implies, true_and, isLt_some,
    isNotIn_some, Region.text_mem_texts, Faction.text_mem_texts, not_true_eq_false,
    hbalance, Bool.false_eq_true, not_false_eq_true, true_implies]
  refine ⟨by omega, fun _ => ⟨by omega, fun _ => ⟨fun hout => hout hrange, fun _ => ?_⟩⟩⟩
  have hget : (s.advance .withdrawTickets).balances.get? order.discordId = some row := hrow
  refine (wp_updateBalance _ _).mpr ⟨fun hnone => ?_, fun old hold => ⟨fun e => ?_, fun new _ => ?_⟩⟩
  · exact absurd (hget.symm.trans hnone) (Option.some_ne_none row)
  · obtain rfl := Option.some.inj (hget.symm.trans hold)
    have hspendable := row.inRange.1
    have hlocked := row.lockedBalance_nonneg
    unfold InBigint at hspendable
    have hbalanceRange : InBigint (row.balance - order.payload.amount) := ⟨by omega, by omega⟩
    have hbalancePos : 0 ≤ row.balance - order.payload.amount := Int.sub_nonneg_of_le hfunds
    have hlockedPos : 0 ≤ row.lockedBalance + order.payload.amount := Int.add_nonneg hlocked hpos.le
    refine Balance.check_ne_error ?_ ?_ ?_ ?_ ?_ e
    · exact ⟨hbalanceRange, hroom, row.inRange.2.2⟩
    · exact hbalancePos
    · exact hlockedPos
    · exact row.totalWagered_nonneg
    · exact row.totalWon_nonneg
  · refine openTicket_returns hpos fun ticket hid howner hthread => ?_
    refine insertWithdraw_returns ?_ hadmits.freshUid (hthread ▸ hadmits.freshThread)
      (howner ▸ hregistered) (Int.tdiv_nonneg hproduct (by decide)) fun w => ?_
    · have hnext : ticket.id = s.sequences .withdrawTickets + 2 := by
        simp only [hid, Database.setBalance_sequences, Database.advance_sequences,
          Function.update_self]
        omega
      rw [hnext]
      exact hadmits.freshId
    · simp only [wp_auditLogInsertWithChain, hkey, reduceCtorEq, false_implies, implies_true,
        Except.ok.injEq, Option.some.injEq, forall_eq', true_and, and_true]
      exact hregistered

/-- An order whose product leaves the range fails. -/
theorem createWithdraw_needs_range (hrate : s.dwInt "withdraw_fee_bps" = some bps)
    (hok : order.call.Succeeds env s) : InBigint (order.payload.amount * bps) := by
  have hwp : wp (callBody env order.call) (fun _ _ => InBigint (order.payload.amount * bps))
      (fun _ => True) s := by
    unfold WithdrawOrder.call callBody createWithdrawTicket
    simp only [wp_bind, wp_get, wp_require, wp_raiseIf, wp_nextval, wp_notNull, wp_nullableBigint,
      wp_pure, hrate, Option.map_some, Option.some.injEq, forall_eq', reduceCtorEq, implies_true,
      true_and]
    intro vMin _ vMax _ vTtlS _ _ _ _ vBanned _ _ _ hrange
    exact wp_of_forall _ fun _ _ => wp_of_forall _ fun _ _ => wp_of_forall _ fun _ _ =>
      wp_of_forall _ fun _ _ => hrange
  exact post_of_outcome hwp (transact_ok Database.rollback (Prod.ext hok rfl))

/-- An order that goes through writes the next ticket. -/
theorem createWithdraw_opens (hok : order.call.Succeeds env s) :
    (step s (.call env order.call)).withdrawTickets.get? s.nextWithdraw ≠ none := by
  have hwp : wp (callBody env order.call)
      (fun _ s' => s'.withdrawTickets.get? s.nextWithdraw ≠ none) (fun _ => True) s := by
    unfold WithdrawOrder.call callBody createWithdrawTicket
    simp only [wp_bind, wp_get, wp_require, wp_raiseIf, wp_nextval, wp_notNull, wp_nullableBigint,
      wp_pure, Option.map_some, Option.some.injEq, forall_eq', reduceCtorEq, implies_true, true_and]
    intro vMin _ vMax _ vFeeBps _ vTtlS _ _ _ _ vBanned _ _ _ _
    refine wp_of_forall _ fun _ _ => wp_of_forall _ fun ticket _ => wp_insertWithdraw fun _ _ => ?_
    refine wp_of_keeps auditLogInsert_keepsWithdraws fun _ s' hsame => ?_
    rw [hsame, Database.addWithdraw_withdrawTickets, Database.nextWithdraw,
      Table.get?_insertNew_self]
    exact Option.some_ne_none _
  exact post_of_outcome hwp (transact_ok Database.rollback (Prod.ext hok rfl))

/-- The other checks are no more than what the function does: every order that goes
through is admitted. -/
theorem admits_of_succeeds (hok : order.call.Succeeds env s) : s.Admits env order := by
  have hwp : wp (callBody env order.call) (fun _ _ => s.Admits env order) (fun _ => True) s := by
    unfold WithdrawOrder.call callBody createWithdrawTicket openTicket insertWithdraw
    simp only [wp_bind, wp_get, wp_set, wp_require, wp_raiseIf, wp_nextval, wp_notNull,
      wp_nullableBigint, wp_checkedText, wp_dite, wp_throw, wp_updateBalance,
      wp_auditLogInsertWithChain, wp_pure, Option.map_some, Option.some.injEq, forall_eq',
      reduceCtorEq, implies_true, true_and, and_true, Table.select_some, isLt_some]
    intro vMin hmin vMax hmax vFeeBps _ vTtlS httl hlimits _ _ vBanned hbanned hallowed hfunds _
    constructor
    · -- without a balance the audit row has none to record
      intro hnone _ _ _ _ _ _ _ _ _ _ _ _ before hbefore
      rw [Database.balance?, Table.select_some, show s.balances.get? order.discordId = none from hnone]
        at hbefore
      cases hbefore
    · intro row hrow new hnew _ _ _ _ _ hid huid hthread _ _ key hkey _ _ _ _ _
      have hget : s.balances.get? order.discordId = some row := hrow
      obtain ⟨user, huser, rfl⟩ := Option.map_eq_some_iff.mp hbanned
      rw [not_or, not_lt, not_lt] at hlimits
      rw [Database.balance?, Table.select_some, hget, Option.map_some, isLt_some, not_lt] at hfunds
      have hnext : (s.sequences .withdrawTickets + 1) + 1 = s.sequences .withdrawTickets + 2 := by
        omega
      exact
        { limits := ⟨vMin, vMax, hmin, hmax, hlimits.1, hlimits.2⟩
          expiry := httl ▸ Option.some_ne_none vTtlS
          user := ⟨user, huser, Bool.eq_false_iff.mpr hallowed⟩
          funds := ⟨row, hget, hfunds, by
            have hstored := new.inRange.2.1
            rwa [hnew] at hstored⟩
          freshId := by
            simpa only [Database.setBalance_sequences, Database.setBalance_withdrawTickets,
              Database.advance_sequences, Database.advance_withdrawTickets,
              Function.update_self, hnext] using hid
          freshUid := not_ne_iff.mp huid
          freshThread := hthread
          chainKey := ⟨key, hkey⟩ }
  exact post_of_outcome hwp (transact_ok Database.rollback (Prod.ext hok rfl))

/-! ## Confirming it -/

/-- A confirmation of a claimed ticket delivers the amount less the fee and credits the fee. -/
theorem confirmWithdraw_pays (hs : s.WellFormed) {uid : String} {w : WithdrawTicket}
    (hw : s.withdrawTickets.get? uid = some w) (hstatus : w.status = .claimed)
    {cashier : Option Int} (hok : (Call.confirmWithdraw (some uid) cashier).Succeeds env s)
    (hfee : w.fee ≤ w.amount) :
    s.PaysOut (step s (.call env (.confirmWithdraw (some uid) cashier))) uid w.amount w.fee := by
  have hstep := (takes_of_succeeds hs hok).1
  generalize step s (.call env (.confirmWithdraw (some uid) cashier)) = s' at hstep ⊢
  cases hstep with
  | quiet hquiet =>
      obtain ⟨_, ticket, huid, hticket, hconfirmed⟩ := hquiet
      obtain rfl := Option.some.inj huid
      obtain rfl := Option.some.inj (hw.symm.trans hticket)
      rw [hstatus] at hconfirmed
      cases hconfirmed
  | betResolved hcall => rcases hcall with ⟨_, hcall⟩ | ⟨_, hcall, -⟩ <;> cases hcall
  | withdrawConfirmed hticket _ _ hl' =>
      obtain rfl := Option.some.inj (hw.symm.trans hticket)
      have hrows : s'.withdrawTickets = s.withdrawTickets.set uid _ := congrArg Ledger.withdraws hl'
      have hbooks : s'.ledger.books = s.ledger.books + _ := congrArg Ledger.books hl'
      refine ⟨⟨_, by rw [hrows, Table.get?_set_self hw], rfl, rfl⟩, by omega, ?_, by omega⟩
      have hwallet := DFunLike.congr_fun hbooks (.wallet 0)
      simpa [ledger_books_wallet] using hwallet

/-! ## The fee is exact where the product fits -/

/-- For a rate that the command accepts and an amount that the modal accepts, an order that
passes every other check is charged exactly when amount times rate is below `2 ^ 63`. -/
theorem charges_exactly_iff {s₀ : Database} (h₀ : s₀.EmptyLedger) (before : List Command)
    (haccepted : refuseFee true bps = none)
    (hrate : (run step s₀ before).dwInt "withdraw_fee_bps" = some bps) {text : PyStr}
    (hamount : parseAmount (.str text) = .ok order.payload.amount)
    (hadmits : (run step s₀ before).Admits env order) :
    (run step s₀ before).ChargesExactly env order bps ↔ order.payload.amount * bps < 2 ^ 63 := by
  have hs : (run step s₀ before).WellFormed := wellFormed_run h₀.wellFormed before
  generalize run step s₀ before = s at hrate hadmits hs ⊢
  obtain ⟨hbps, hbps'⟩ := rate_of_accepted haccepted
  have hpos : 0 < order.payload.amount := by
    obtain ⟨hnumeral, hvalue, -⟩ := parseAmount_eq_ok.mp hamount
    have := hnumeral.value_pos
    omega
  constructor
  · intro hcharges
    obtain ⟨w, hw, -⟩ := hcharges.opens
    by_contra hover
    have hfails : ¬ order.call.Succeeds env s := fun hok =>
      hover (createWithdraw_needs_range hrate hok).2
    obtain ⟨atError, hsame⟩ := step_of_fails hfails
    rw [hsame] at hw
    exact absurd (hadmits.freshUid.symm.trans hw) (Option.some_ne_none w).symm
  · intro hfits
    have hok := createWithdraw_returns hpos hadmits hrate hbps hfits
    have hopens : s.Opens env order.call s.nextWithdraw order.payload.amount bps :=
      { creates := ⟨_, _, _, _, _, _, _, rfl⟩
        rate := hrate
        rateRange := ⟨hbps, hbps'⟩
        fresh := hadmits.freshUid
        opened := createWithdraw_opens hok }
    obtain ⟨opened, hopened, howed, hfee⟩ := hopens.row
    have hle : order.payload.amount * bps / 10000 ≤ order.payload.amount := by
      have hbound := mul_le_mul_of_nonneg_left hbps' hpos.le
      omega
    refine ⟨⟨opened, hopened, howed, hfee⟩, hfee ▸ opened.fee_nonneg, hle, ?_⟩
    intro later env' cashier w hw hstatus hconfirms
    have hs₁ := wellFormed_step hs (.call env order.call)
    have hticketOf : (step s (.call env order.call)).ticketOf .withdraw s.nextWithdraw =
        some opened.toTicket := Option.map_eq_some_iff.mpr ⟨opened, hopened, rfl⟩
    obtain ⟨ticket, hticket, hkept⟩ := ticketOf_amount hs₁ hticketOf later
    obtain ⟨_, hlater, hsame⟩ := withdraw_fee hs₁ hopened later
    obtain ⟨w', hw', rfl⟩ := Option.map_eq_some_iff.mp hticket
    rw [run_cons] at hw hconfirms
    obtain rfl := Option.some.inj (hw.symm.trans hlater)
    obtain rfl := Option.some.inj (hw.symm.trans hw')
    have hamount' : w.amount = order.payload.amount := hkept.trans howed
    have hfee' : w.fee = order.payload.amount * bps / 10000 := hsame.trans hfee
    have hpaid := confirmWithdraw_pays (wellFormed_run hs₁ later) hw hstatus hconfirms (by omega)
    rw [hamount', hfee'] at hpaid
    rw [List.cons_append, run_cons, run_cons, run_append]
    exact hpaid

/-- User 9 asks for a withdraw of some amount in thread 3. -/
def orderOf (amount : Int) : WithdrawOrder :=
  ⟨9, ⟨"Char", "Realm", .EU, .Horde, amount⟩, 3, 2⟩

theorem charges_exactly_iff_thousand :
    (run step .seeded depositRun).ChargesExactly .plain (orderOf 1000) 200 ↔
      (1000 : Int) * 200 < 2 ^ 63 := by
  have hrate : (run step .seeded depositRun).dwInt "withdraw_fee_bps" = some 200 := by
    decide +kernel
  have hamount : parseAmount (.str [0x31, 0x30, 0x30, 0x30]) =
      .ok (orderOf 1000).payload.amount := by
    decide +kernel
  have hadmits : (run step .seeded depositRun).Admits .plain (orderOf 1000) :=
    admits_of_succeeds (by decide +kernel)
  exact charges_exactly_iff seeded_empty depositRun (by decide) hrate hamount hadmits

/-- Limits of a quadrillion, a rate that takes everything, and a deposit of the maximum. -/
def vastRun : List Command :=
  [.config (.dwConfig "max_deposit_g" (some 1000000000000000)),
   .config (.dwConfig "max_withdraw_g" (some 1000000000000000)),
   .config (.dwConfig "withdraw_fee_bps" (some 10000)),
   .call .plain (.addCashierCharacter (some 7) (some "Bank") (some "Realm") (some "EU")
    (some "Horde")),
   .call .plain (.createDepositTicket (some 9) (some "Char") (some "Realm") (some "EU")
    (some "Horde") (some 1000000000000000) (some 1) (some 2)),
   .call .plain (.claimTicket (some "deposit") (some "deposit-1") (some 7)),
   .call .plain (.confirmDeposit (some "deposit-1") (some 7))]

/-- A user withdraws the quadrillion that they own. Within the limits, the product of
amount and rate is out of range and no ticket is opened. -/
theorem vastRun_uncharged :
    refuseFee true 10000 = none ∧
      (run step .seeded vastRun).dwInt "withdraw_fee_bps" = some 10000 ∧
      parseAmount (.str (0x31 :: List.replicate 15 0x30)) =
        .ok (orderOf 1000000000000000).payload.amount ∧
      (run step .seeded vastRun).Admits .plain (orderOf 1000000000000000) ∧
      ¬ (run step .seeded vastRun).ChargesExactly .plain (orderOf 1000000000000000) 10000 := by
  have hbalance : ((run step .seeded vastRun).balances.get? 9).map
      (fun row => (row.balance, row.lockedBalance)) = some (1000000000000000, 0) := by
    decide +kernel
  have hbanned : ((run step .seeded vastRun).users.get? 9).map (·.banned) = some false := by
    decide +kernel
  obtain ⟨row, hrow, hfunds⟩ := Option.map_eq_some_iff.mp hbalance
  obtain ⟨user, huser, hallowed⟩ := Option.map_eq_some_iff.mp hbanned
  obtain ⟨hspendable, hlocked⟩ := Prod.mk.inj hfunds
  have hadmits : (run step .seeded vastRun).Admits .plain (orderOf 1000000000000000) :=
    { limits := ⟨1000, 1000000000000000, by decide +kernel⟩
      expiry := by decide +kernel
      user := ⟨user, huser, hallowed⟩
      funds := ⟨row, hrow, by rw [hspendable]; decide, by rw [hlocked]; decide⟩
      freshId := by decide +kernel
      freshUid := by decide +kernel
      freshThread := by decide +kernel
      chainKey := ⟨_, rfl⟩ }
  refine ⟨by decide, by decide +kernel, by decide +kernel, hadmits, fun hcharges => ?_⟩
  obtain ⟨w, hw, -⟩ := hcharges.opens
  have hnone : ((step (run step .seeded vastRun) (.call .plain (orderOf 1000000000000000).call)
      ).withdrawTickets.get? (run step .seeded vastRun).nextWithdraw).isNone := by
    decide +kernel
  rw [hw] at hnone
  cases hnone

end DeathRoll
