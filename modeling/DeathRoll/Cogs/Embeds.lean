import DeathRoll.Cogs.CancelMine

/-! # The amounts in the embeds

`_build_claimed_embed` and `_build_confirmed_embed` of the ticket cog, and the withdraw
cog's `_fetch_fee_and_delivered`. A withdraw's fee is fixed when the ticket is opened, and
the statement that resolves a thread does not select it.
-/

namespace DeathRoll

open Relational Tx

/-! ## The ticket cog -/

/-- The integer columns of `dict(row)`: what the statement selects. -/
def TicketContext.intColumns (ctx : TicketContext) : List (String × Int) :=
  [("discord_id", ctx.ticketRow.discordId), ("amount", ctx.ticketRow.amount)]

/-- `deposit_ticket_claimed_embed`, or `withdraw_ticket_claimed_embed` with the amount
delivered. -/
structure ClaimedEmbed where
  ticketUid : String
  amount : Int
  amountDelivered : Option Int
  userCharName : String
  cashierMention : String
  cashierChar : String
  cashierRealm : String
  cashierRegion : String
  location : String
deriving DecidableEq

def buildClaimedEmbed (ctx : TicketContext) (cashierMention : String) : ClaimedEmbed :=
  let amount := ctx.ticketRow.amount
  { ticketUid := ctx.ticketUid
    amount
    amountDelivered :=
      match ctx.ticketType with
      | .deposit => none
      | .withdraw => some amount
    userCharName := ctx.ticketRow.charName
    cashierMention
    cashierChar := "(set via /cashier)"
    cashierRealm := "(see cashier)"
    cashierRegion := ctx.ticketRow.region.text
    location := "(cashier will share in this thread)" }

/-- `deposit_ticket_confirmed_embed`, or `withdraw_ticket_confirmed_embed` with the fee and
the amount delivered. -/
inductive ConfirmedEmbed where
  | deposit (ticketUid : String) (amount newBalance : Int) (confirmedAt : Timestamp)
  | withdraw (ticketUid : String) (amount fee amountDelivered newBalance : Int)
      (confirmedAt : Timestamp)
deriving DecidableEq

def buildConfirmedEmbed (ctx : TicketContext) (newBalance : Int) (confirmedAt : Timestamp) :
    ConfirmedEmbed :=
  let amount := ctx.ticketRow.amount
  match ctx.ticketType with
  | .deposit => .deposit ctx.ticketUid amount newBalance confirmedAt
  | .withdraw =>
      let fee := (ctx.intColumns.lookup "fee").getD (amount * 200 / 10000)
      .withdraw ctx.ticketUid amount fee (amount - fee) newBalance confirmedAt

/-! ## The withdraw cog -/

structure WithdrawModalInput where
  charName : String
  realm : String
  region : Region
  faction : Faction
  amount : Int

/-- `SELECT fee FROM dw.withdraw_tickets WHERE ticket_uid = _`. -/
def Database.selectFee (s : Database) (ticketUid : String) : Option Int :=
  (s.withdrawTickets.get? ticketUid).map WithdrawTicket.fee

/-- `read` is what the statement returned, `none` when it raised. -/
def fetchFeeAndDelivered (read : Option (Option Int)) (amount : Int) : Int × Int :=
  match read with
  | some (some fee) => (fee, amount - fee)
  | _ =>
      let fallbackFee := amount * 200 / 10000
      (fallbackFee, amount - fallbackFee)

structure WithdrawOpenEmbed where
  ticketUid : String
  charName : String
  region : Region
  faction : Faction
  amount : Int
  fee : Int
  amountDelivered : Int
  createdAt : Timestamp
deriving DecidableEq

/-- The embed of a ticket that was just opened. -/
def withdrawOpenEmbed (payload : WithdrawModalInput) (ticketUid : String)
    (read : Option (Option Int)) (createdAt : Timestamp) : WithdrawOpenEmbed :=
  let shown := fetchFeeAndDelivered read payload.amount
  { ticketUid
    charName := payload.charName
    region := payload.region
    faction := payload.faction
    amount := payload.amount
    fee := shown.1
    amountDelivered := shown.2
    createdAt }

/-! ## What they show -/

/-- The call opens the ticket `uid` in `s`, for an amount and at a rate. -/
structure Database.Opens (s : Database) (env : Env) (call : Call) (uid : String)
    (amount bps : Int) : Prop where
  creates : ∃ d c r g f t p, call = .createWithdrawTicket d c r g f (some amount) t p
  rate : s.dwInt "withdraw_fee_bps" = some bps
  rateRange : 0 ≤ bps ∧ bps ≤ 10000
  fresh : s.withdrawTickets.get? uid = none
  opened : (step s (.call env call)).withdrawTickets.get? uid ≠ none

/-- The embeds show the fee of the ticket's row and what is left of the amount, which is
what `dw.confirm_withdraw` writes. -/
structure Database.ShowsLedger (s : Database) (ctx : TicketContext)
    (payload : WithdrawModalInput) (w : WithdrawTicket) : Prop where
  opened : ∀ createdAt,
    withdrawOpenEmbed payload ctx.ticketUid (some (s.selectFee ctx.ticketUid)) createdAt =
      ⟨ctx.ticketUid, payload.charName, payload.region, payload.faction, w.amount, w.fee,
        w.amount - w.fee, createdAt⟩
  claimed : ∀ mention, (buildClaimedEmbed ctx mention).amountDelivered = some (w.amount - w.fee)
  confirmed : ∀ newBalance confirmedAt, buildConfirmedEmbed ctx newBalance confirmedAt =
    .withdraw ctx.ticketUid w.amount w.fee (w.amount - w.fee) newBalance confirmedAt
  written : ∀ delivered, w.amountDelivered = some delivered → delivered = w.amount - w.fee
  writtenWhen : w.amountDelivered ≠ none ↔ w.status = .confirmed

variable {env : Env} {s s₀ : Database} {d a t p : Option Int} {c r g f : Option String}
variable {uid : String} {amount bps : Int}

theorem updateBalance_keepsWithdraws {u : Int} {assign : BalanceRow → BalanceRow} :
    (updateBalance u assign).Keeps Database.withdrawTickets :=
  fun _ => (wp_updateBalance u assign).mpr
    ⟨fun _ => rfl, fun _ _ => ⟨fun _ _ => trivial, fun _ _ => rfl⟩⟩

theorem auditLogInsert_keepsWithdraws {p : AuditParams} :
    (auditLogInsertWithChain env p).Keeps Database.withdrawTickets := by
  intro s
  simp only [wp_auditLogInsertWithChain, implies_true, true_and]
  intros
  rfl

/-- A new withdraw ticket has the call's amount, and the fee at the rate of the moment. -/
theorem createWithdrawTicket_charges :
    wp (callBody env (.createWithdrawTicket d c r g f a t p))
      (fun _ s' => ∀ uid w, s.withdrawTickets.get? uid = none →
        s'.withdrawTickets.get? uid = some w →
        ∃ bps, s.dwInt "withdraw_fee_bps" = some bps ∧ a = some w.amount ∧
          w.fee = (w.amount * bps).tdiv 10000) (fun _ => True) s := by
  unfold callBody createWithdrawTicket
  simp only [wp_bind, wp_get, wp_require, wp_raiseIf, wp_nextval, wp_notNull, wp_nullableBigint,
    wp_pure, implies_true, true_and]
  intro vMin _ vMax _ vFeeBps hbps vTtlS _ _ _ _ vBanned _ _ _ _ owner _ amount hamount
  refine wp_of_keeps updateBalance_keepsWithdraws fun _ s₁ h₁ => ?_
  refine openTicket_fresh fun ticket hfresh _ hticket fee hfee => wp_insertWithdraw fun _ hnew => ?_
  refine wp_of_keeps auditLogInsert_keepsWithdraws fun _ s₂ h₂ uid w hnone hw => ?_
  rw [h₂] at hw
  have hrow : (s₁.withdrawTickets.insertNew _ _).get? uid = some w := hw
  rw [Table.get?_insertNew, h₁] at hrow
  split at hrow
  next heq =>
    subst heq
    have hnone' : (s.advance .withdrawTickets).withdrawTickets.get? _ = none := hnone
    rw [hnone', Option.getD_none, Option.some.injEq] at hrow
    subst hrow
    refine ⟨vFeeBps, hbps, hticket, ?_⟩
    rw [hticket] at hfee
    exact (Option.some.inj hfee).symm
  next =>
    have hnone' : (s.advance .withdrawTickets).withdrawTickets.get? uid = none := hnone
    rw [hnone'] at hrow
    cases hrow

/-- The opened ticket's row: the fee is the amount's share at the rate, rounded down. -/
theorem Database.Opens.row {call : Call} (hopens : s.Opens env call uid amount bps) :
    ∃ w, (step s (.call env call)).withdrawTickets.get? uid = some w ∧ w.amount = amount ∧
      w.fee = amount * bps / 10000 := by
  obtain ⟨⟨d, c, r, g, f, t, p, rfl⟩, hrate, ⟨hnonneg, -⟩, hfresh, hopened⟩ := hopens
  obtain ⟨w, hw⟩ := Option.ne_none_iff_exists'.mp hopened
  by_cases hok : (Call.createWithdrawTicket d c r g f (some amount) t p).Succeeds env s
  · have hcommitted := transact_ok Database.rollback (Prod.ext (hok : (Call.exec env _ s).1 = _) rfl)
    obtain ⟨rate, hrate', hamount, hfee⟩ :=
      post_of_outcome createWithdrawTicket_charges hcommitted uid w hfresh hw
    obtain rfl := Option.some.inj (hrate.symm.trans hrate')
    obtain rfl := Option.some.inj hamount
    have hproduct : 0 ≤ w.amount * bps := mul_nonneg w.amount_pos.le hnonneg
    exact ⟨w, hw, rfl, by rw [hfee, Int.tdiv_eq_ediv_of_nonneg hproduct]⟩
  · obtain ⟨atError, heq⟩ := step_of_fails hok
    rw [heq] at hopened
    exact absurd hfresh hopened

theorem ticketOf_of_resolved {interaction : Interaction} {ctx : TicketContext}
    (hctx : resolveTicketContext s interaction = .ok ctx) :
    s.ticketOf ctx.ticketType ctx.ticketUid = some ctx.ticketRow := by
  unfold resolveTicketContext at hctx
  split at hctx
  next => cases hctx
  next =>
    split at hctx
    next => cases hctx
    next found hfound =>
      obtain rfl := Except.ok.inj hctx
      exact ticketOf_of_ticketInThread hfound

/-- The statement does not select the fee. -/
@[simp] theorem intColumns_fee (ctx : TicketContext) : ctx.intColumns.lookup "fee" = none := rfl

/-- Where the amounts agree, the embeds show the ledger's numbers when neither the ticket's
fee nor two percent of the amount comes to a gold. -/
theorem showsLedger_iff {ctx : TicketContext} {payload : WithdrawModalInput} {w : WithdrawTicket}
    (htype : ctx.ticketType = .withdraw) (hrow : ctx.ticketRow.amount = w.amount)
    (hpayload : payload.amount = w.amount) (hw : s.withdrawTickets.get? ctx.ticketUid = some w)
    (hcons : w.Consistent) :
    s.ShowsLedger ctx payload w ↔ w.fee = 0 ∧ w.amount * 200 / 10000 = 0 := by
  constructor
  · intro hshows
    have hfee : w.fee = 0 := by
      have hclaimed := hshows.claimed ""
      simp only [buildClaimedEmbed, htype, hrow, Option.some.injEq] at hclaimed
      omega
    have hconfirmed := hshows.confirmed 0 0
    simp only [buildConfirmedEmbed, htype, hrow, ConfirmedEmbed.withdraw.injEq] at hconfirmed
    exact ⟨hfee, hfee ▸ hconfirmed.2.2.1⟩
  · rintro ⟨hfee, hdefault⟩
    refine ⟨?_, ?_, ?_, hcons.delivered_eq, hcons.delivered⟩
    · intro createdAt
      simp [withdrawOpenEmbed, fetchFeeAndDelivered, Database.selectFee, hpayload, hw]
    · intro mention
      simp [buildClaimedEmbed, htype, hrow, hfee]
    · intro newBalance confirmedAt
      simp [buildConfirmedEmbed, htype, hrow, hfee, hdefault]

/-- However the run goes on, the embeds of a withdraw show what the ledger has and will
write exactly when its fee, and a fee at 200 basis points, both round down to nothing. -/
theorem amounts_shown_iff (h₀ : s₀.EmptyLedger) (before between : List Command) {call : Call}
    (hopens : (run step s₀ before).Opens env call uid amount bps) {interaction : Interaction}
    {ctx : TicketContext}
    (hctx : resolveTicketContext (run step s₀ (before ++ .call env call :: between)) interaction =
      .ok ctx)
    (hticket : ctx.ticketType = .withdraw ∧ ctx.ticketUid = uid) (payload : WithdrawModalInput)
    (hpayload : payload.amount = amount) :
    (∀ later w, (run step s₀ (before ++ .call env call :: later)).withdrawTickets.get? uid =
        some w → (run step s₀ (before ++ .call env call :: later)).ShowsLedger ctx payload w) ↔
      amount * bps < 10000 ∧ amount * 200 < 10000 := by
  obtain ⟨htype, huid⟩ := hticket
  have hs : (run step s₀ before).WellFormed := wellFormed_run h₀.wellFormed before
  obtain ⟨opened, hopened, hamount, hfee⟩ := hopens.row
  have hlater : ∀ later, ∃ w, (run step s₀ (before ++ .call env call :: later)).withdrawTickets.get?
      uid = some w ∧ w.amount = amount ∧ w.fee = amount * bps / 10000 := by
    intro later
    have hs₁ := wellFormed_step hs (.call env call)
    obtain ⟨w, hw, hsame⟩ := withdraw_fee hs₁ hopened later
    have hticketOf : (step (run step s₀ before) (.call env call)).ticketOf .withdraw uid =
        some opened.toTicket := Option.map_eq_some_iff.mpr ⟨opened, hopened, rfl⟩
    obtain ⟨ticket, hticket, hkept⟩ := ticketOf_amount hs₁ hticketOf later
    obtain ⟨w', hw', rfl⟩ := Option.map_eq_some_iff.mp hticket
    obtain rfl := Option.some.inj (hw.symm.trans hw')
    refine ⟨w, ?_, hkept.trans hamount, hsame.trans hfee⟩
    rw [run_append, run_cons, hw]
  have hctxAmount : ctx.ticketRow.amount = amount := by
    obtain ⟨w, hw, hamount', -⟩ := hlater between
    have hresolved := ticketOf_of_resolved hctx
    rw [htype, huid, Database.ticketOf, hw, Option.map_some, Option.some.injEq] at hresolved
    rw [← hresolved, hamount']
  have hshows : ∀ later w, (run step s₀ (before ++ .call env call :: later)).withdrawTickets.get?
      uid = some w → ((run step s₀ (before ++ .call env call :: later)).ShowsLedger ctx payload w ↔
        w.fee = 0 ∧ w.amount * 200 / 10000 = 0) := by
    intro later w hw
    obtain ⟨w', hw', hamount', -⟩ := hlater later
    obtain rfl := Option.some.inj (hw'.symm.trans hw)
    exact showsLedger_iff htype (hctxAmount.trans hamount'.symm) (hpayload.trans hamount'.symm)
      (huid ▸ hw) ((ticketsConsistent_run h₀ _).withdraw uid w' hw)
  have hpos : 0 < amount := hamount ▸ opened.amount_pos
  have hrate : 0 ≤ amount * bps := mul_nonneg hpos.le hopens.rateRange.1
  constructor
  · intro hall
    obtain ⟨w, hw, hamount', hfee'⟩ := hlater []
    obtain ⟨hnone, hdefault⟩ := (hshows [] w hw).mp (hall [] w hw)
    rw [hfee'] at hnone
    rw [hamount'] at hdefault
    exact ⟨by omega, by omega⟩
  · rintro ⟨hsmall, hdefault⟩ later w hw
    obtain ⟨w', hw', hamount', hfee'⟩ := hlater later
    obtain rfl := Option.some.inj (hw'.symm.trans hw)
    refine (hshows later w' hw).mpr ⟨?_, ?_⟩
    · rw [hfee']
      omega
    · rw [hamount']
      omega

theorem toOption_eq_some {ε α : Type} {x : Except ε α} {a : α} :
    x.toOption = some a ↔ x = .ok a := by
  cases x <;> simp [Except.toOption]

/-- User 9 opens a withdraw of 1000 in thread 3. -/
def openWithdraw : Call :=
  .createWithdrawTicket (some 9) (some "Char") (some "Realm") (some "EU") (some "Horde")
    (some 1000) (some 3) (some 2)

def withdrawPayload : WithdrawModalInput := ⟨"Char", "Realm", .EU, .Horde, 1000⟩

theorem amounts_shown_iff_default :
    ∃ ctx, resolveTicketContext (run step .seeded (depositRun ++ .call .plain openWithdraw :: []))
        ⟨true, some 3, 9⟩ = .ok ctx ∧
      ((∀ later w, (run step .seeded (depositRun ++ .call .plain openWithdraw :: later)
          ).withdrawTickets.get? "withdraw-1" = some w →
          (run step .seeded (depositRun ++ .call .plain openWithdraw :: later)).ShowsLedger ctx
            withdrawPayload w) ↔
        (1000 : Int) * 200 < 10000 ∧ (1000 : Int) * 200 < 10000) := by
  have hopens : (run step .seeded depositRun).Opens .plain openWithdraw "withdraw-1" 1000 200 := by
    refine ⟨⟨_, _, _, _, _, _, _, rfl⟩, ?_, by decide, ?_, ?_⟩ <;> decide +kernel
  have hresolved : (resolveTicketContext
      (run step .seeded (depositRun ++ .call .plain openWithdraw :: []))
      ⟨true, some 3, 9⟩).toOption.map (fun ctx => (ctx.ticketType, ctx.ticketUid)) =
        some (.withdraw, "withdraw-1") := by
    decide +kernel
  obtain ⟨ctx, hctx, hticket⟩ := Option.map_eq_some_iff.mp hresolved
  have hok := toOption_eq_some.mp hctx
  exact ⟨ctx, hok, amounts_shown_iff seeded_empty depositRun [] hopens hok
    ⟨congrArg Prod.fst hticket, congrArg Prod.snd hticket⟩ withdrawPayload rfl⟩

/-- At 500 basis points the fee is 50. The cashier is told to deliver all of the 1000, and
the user that 980 were delivered for a fee of 20. -/
theorem amounts_shown_wrong :
    ∃ ctx w, resolveTicketContext (run step .seeded (depositRun ++
          [.config (.dwConfig "withdraw_fee_bps" (some 500)), .call .plain openWithdraw]))
        ⟨true, some 3, 9⟩ = .ok ctx ∧
      (run step .seeded (depositRun ++
          [.config (.dwConfig "withdraw_fee_bps" (some 500)), .call .plain openWithdraw])
        ).withdrawTickets.get? ctx.ticketUid = some w ∧
      (w.amount, w.fee) = (1000, 50) ∧
      (buildClaimedEmbed ctx "").amountDelivered = some 1000 ∧
      buildConfirmedEmbed ctx 0 0 = .withdraw "withdraw-1" 1000 20 980 0 0 ∧
      ¬ (run step .seeded (depositRun ++ [.config (.dwConfig "withdraw_fee_bps" (some 500)),
          .call .plain openWithdraw])).ShowsLedger ctx withdrawPayload w := by
  have hresolved : (resolveTicketContext (run step .seeded (depositRun ++
      [.config (.dwConfig "withdraw_fee_bps" (some 500)), .call .plain openWithdraw]))
      ⟨true, some 3, 9⟩).toOption.map (fun ctx => (ctx.ticketUid,
        (buildClaimedEmbed ctx "").amountDelivered, buildConfirmedEmbed ctx 0 0)) =
        some ("withdraw-1", some 1000, .withdraw "withdraw-1" 1000 20 980 0 0) := by
    decide +kernel
  have hstored : ((run step .seeded (depositRun ++
      [.config (.dwConfig "withdraw_fee_bps" (some 500)), .call .plain openWithdraw])
      ).withdrawTickets.get? "withdraw-1").map (fun w => (w.amount, w.fee)) = some (1000, 50) := by
    decide +kernel
  obtain ⟨ctx, hctx, hshown⟩ := Option.map_eq_some_iff.mp hresolved
  obtain ⟨w, hw, hamounts⟩ := Option.map_eq_some_iff.mp hstored
  obtain ⟨huid, hembeds⟩ := Prod.mk.inj hshown
  obtain ⟨hclaimed, hconfirmed⟩ := Prod.mk.inj hembeds
  refine ⟨ctx, w, toOption_eq_some.mp hctx, by rw [huid, hw], hamounts, hclaimed, hconfirmed, ?_⟩
  intro hshows
  have hdelivered := hclaimed.symm.trans (hshows.claimed "")
  obtain ⟨hamount, hfee⟩ := Prod.mk.inj hamounts
  rw [hamount, hfee] at hdelivered
  exact absurd hdelivered (by decide)

end DeathRoll
