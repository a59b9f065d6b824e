import DeathRoll.Ledger.TicketMoves
import DeathRoll.Workers.Expiry
import DeathRoll.Workers.Pass

/-! # Ending idle claims

`workers/claim_idle.py`. A tick lists the claims without activity for half an hour and
releases them one transaction at a time, then lists the claims older than two hours and
cancels their tickets. A transaction checks the status of its ticket again, and a release
the claimer, but no transaction checks the time again.
-/

namespace DeathRoll

open Relational Tx

/-- `status = 'claimed' AND last_activity_at < NOW() - INTERVAL '30 minutes'`. -/
def Ticket.IdleClaim (ticket : Ticket) (now : Timestamp) : Prop :=
  ticket.status = .claimed ∧ ticket.lastActivityAt < now - 1800 * 1000000

/-- `status = 'claimed' AND claimed_at < NOW() - INTERVAL '2 hours'`. -/
def Ticket.LongClaim (ticket : Ticket) (now : Timestamp) : Prop :=
  ticket.status = .claimed ∧ IsLt ticket.claimedAt (some (now - 7200 * 1000000))

instance (ticket : Ticket) (now : Timestamp) : Decidable (ticket.IdleClaim now) := instDecidableAnd

instance (ticket : Ticket) (now : Timestamp) : Decidable (ticket.LongClaim now) := instDecidableAnd

/-- `SELECT 'deposit' ... WHERE ... UNION ALL SELECT 'withdraw' ... WHERE ...`. -/
def Database.ticketsWhere (s : Database) (p : Ticket → Bool) :
    List (TicketType × String × Ticket) :=
  [TicketType.deposit, TicketType.withdraw].flatMap fun kind =>
    ((s.ticketRows kind).filter fun row => p row.2).map fun row => (kind, row)

namespace ClaimIdle

def reasonLongClaim : String := "auto-cancel: cashier abandoned ticket (>2h since claim)"

/-- When a tick reads, how long after that it comes to each ticket, and what others commit
before each of its transactions and between its two passes. -/
structure Schedule where
  env : Env
  idleSelectedAt : Timestamp
  longSelectedAt : Timestamp
  releaseDelay : TicketType → String → ℕ
  cancelDelay : TicketType → String → ℕ
  beforeRelease : TicketType → String → List Command
  beforeCancel : TicketType → String → List Command
  between : List Command

namespace Schedule

def releasedAt (t : Schedule) (kind : TicketType) (uid : String) : Timestamp :=
  t.idleSelectedAt + t.releaseDelay kind uid

def cancelledAt (t : Schedule) (kind : TicketType) (uid : String) : Timestamp :=
  t.longSelectedAt + t.cancelDelay kind uid

/-- `_release_one`: in the name of the cashier listed, or not at all. -/
def release (t : Schedule) (row : TicketType × String × Ticket) : Option (Attempt Command) :=
  row.2.2.claimedBy.map fun claimer =>
    ⟨t.beforeRelease row.1 row.2.1, .call (t.env.at (t.releasedAt row.1 row.2.1))
      (.releaseTicket (some row.1.text) (some row.2.1) (some claimer))⟩

/-- `_cancel_one`; 0 is `_SYSTEM_ACTOR_ID`. -/
def cancel (t : Schedule) (row : TicketType × String × Ticket) : Attempt Command :=
  ⟨t.beforeCancel row.1 row.2.1, .call (t.env.at (t.cancelledAt row.1 row.2.1))
    (row.1.cancelCall row.2.1 0 reasonLongClaim)⟩

def releases (t : Schedule) (s : Database) : List (Attempt Command) :=
  (s.ticketsWhere fun ticket => ticket.IdleClaim t.idleSelectedAt).filterMap t.release

def cancels (t : Schedule) (s : Database) : List (Attempt Command) :=
  (s.ticketsWhere fun ticket => ticket.LongClaim t.longSelectedAt).map t.cancel

end Schedule

/-- The database in which a tick that has released lists the long claims. -/
def longSelected (t : Schedule) (s : Database) : Database :=
  run step (pass s (t.releases s)).state t.between

/-- One pass of the worker. -/
def tick (t : Schedule) (s : Database) : Progress Database Command DbError :=
  (pass s (t.releases s)).andThen fun s' =>
    let s'' := run step s' t.between
    pass s'' (t.cancels s'')

/-- What a tick is for: a ticket that it releases was idle, and one that it cancels long
claimed, when the transaction began. -/
structure ActsOnStale (t : Schedule) (s : Database) : Prop where
  released : ∀ met env kind uid claimer,
    (met, .call env (.releaseTicket (some (TicketType.text kind)) (some uid) (some claimer))) ∈
      (tick t s).acted →
    ∃ ticket, met.ticketOf kind uid = some ticket ∧ ticket.IdleClaim env.now
  cancelled : ∀ met env kind uid actorId reason,
    (met, .call env (TicketType.cancelCall kind uid actorId reason)) ∈ (tick t s).acted →
    ∃ ticket, met.ticketOf kind uid = some ticket ∧ ticket.LongClaim env.now

/-- When the tick comes to a listed ticket, no fresh claim stands that its call would end:
to be released, one by the claimer listed; to be cancelled, one by anybody. Nor is a
ticket open again that its call would cancel. -/
structure Undisturbed (t : Schedule) (s : Database) : Prop where
  release : ∀ row ∈ s.ticketsWhere fun ticket => ticket.IdleClaim t.idleSelectedAt,
    ∀ attempt before claimer at_, t.release row = some attempt →
    ComesTo s (t.releases s) attempt before → row.2.2.claimedBy = some claimer →
    (∃ key, t.env.chainKey = .ok key) →
    lastMove row.1 row.2.1 (steps step s before) = some (.claimed at_ claimer) →
    at_ < t.releasedAt row.1 row.2.1 - 1800 * 1000000
  cancel : (pass s (t.releases s)).error = none →
    ∀ row ∈ (longSelected t s).ticketsWhere fun ticket => ticket.LongClaim t.longSelectedAt,
    ∀ before ticket,
    ComesTo (longSelected t s) (t.cancels (longSelected t s)) (t.cancel row) before →
    (run step (longSelected t s) before).ticketOf row.1 row.2.1 = some ticket →
    (run step (longSelected t s) before).CanCancel (t.env.at (t.cancelledAt row.1 row.2.1)) row.1
      ticket →
    lastMove row.1 row.2.1 (steps step (longSelected t s) before) ≠ some .released ∧
    ∀ at_ cashier,
      lastMove row.1 row.2.1 (steps step (longSelected t s) before) = some (.claimed at_ cashier) →
      at_ < t.cancelledAt row.1 row.2.1 - 7200 * 1000000

end ClaimIdle

variable {env : Env} {s s₀ : Database} {kind : TicketType} {uid : String} {ticket : Ticket}

theorem mem_ticketsWhere {p : Ticket → Bool} :
    (kind, uid, ticket) ∈ s.ticketsWhere p ↔ s.ticketOf kind uid = some ticket ∧ p ticket := by
  rw [← mem_ticketRows]
  cases kind <;> simp [Database.ticketsWhere]

/-- An update of a ticket that is not final goes through. -/
theorem updateTicket_returns {post : Unit → Database → Prop} {assign : Ticket → Ticket}
    (hticket : s.ticketOf kind uid = some ticket) (hstatus : ¬ ticket.status.Terminal)
    (hpost : ∀ s', s'.users = s.users → post () s') :
    wp (updateTicket (some kind.text) uid assign) post (fun _ => False) s := by
  unfold updateTicket
  simp only [wp_bind, wp_get, wp_ite]
  cases kind with
  | deposit =>
      refine ⟨fun _ => ?_, fun hother => absurd (isEq_some.mpr rfl) hother⟩
      rw [show s.depositTickets.get? uid = some ticket from hticket]
      exact (wp_updateDeposit uid ticket _).mpr ⟨fun hfinal => hstatus hfinal.1,
        fun _ => hpost _ rfl⟩
  | withdraw =>
      obtain ⟨row, hrow, rfl⟩ := Option.map_eq_some_iff.mp hticket
      refine ⟨fun hdeposit => absurd (isEq_some.mp hdeposit) (by decide), fun _ => ?_⟩
      rw [hrow]
      exact (wp_updateWithdraw uid row _).mpr ⟨fun hfinal => hstatus hfinal.1,
        fun _ => hpost _ rfl⟩

/-- When a release returns: the ticket is claimed by nobody else, and the release can be
audited. -/
theorem releaseTicket_succeeds_iff (hs : s.WellFormed)
    (hticket : s.ticketOf kind uid = some ticket) (actorId : Int) :
    (Call.releaseTicket (some kind.text) (some uid) (some actorId)).Succeeds env s ↔
      ticket.status = .claimed ∧ ¬ IsNe ticket.claimedBy (some actorId) ∧
        ∃ key, env.chainKey = .ok key := by
  have hread : s.ticket? (some kind.text) (some uid) = some ticket := by rw [ticket?_text, hticket]
  have hkind : ¬ IsNotIn (some kind.text) TicketType.texts := by simp [kind.text_mem_texts]
  constructor
  · intro hok
    have hwp : wp (callBody env (.releaseTicket (some kind.text) (some uid) (some actorId)))
        (fun _ _ => ticket.status = .claimed ∧ ¬ IsNe ticket.claimedBy (some actorId) ∧
          ∃ key, env.chainKey = .ok key) (fun _ => True) s := by
      simp only [callBody, releaseTicket, wp_bind, wp_get, wp_require, wp_raiseIf, wp_pure,
        implies_true, true_and, hread, Option.some.injEq, forall_eq']
      intro _ hstatus hclaimer
      refine wp_mono (updateTicket_keepsUsers _ _ _ s) (fun _ s₁ _ => ?_) fun _ _ => trivial
      simp only [wp_auditLogInsertWithChain, implies_true, true_and]
      grind
    exact post_of_outcome hwp (transact_ok Database.rollback (Prod.ext hok rfl))
  · rintro ⟨hstatus, hclaimer, key, hkey⟩
    apply succeeds_of_wp
    simp only [callBody, releaseTicket, wp_bind, wp_get, wp_require, wp_raiseIf, wp_pure,
      true_and, hread, Option.some.injEq, forall_eq', reduceCtorEq, false_implies]
    have hpending : ¬ ticket.status.Terminal := by simp [hstatus, TicketStatus.Terminal]
    refine ⟨hkind, fun _ => ⟨fun hother => hother hstatus, fun _ => ⟨hclaimer, fun _ => ?_⟩⟩⟩
    refine updateTicket_returns hticket hpending fun s₁ h₁ => ?_
    have huser : s₁.HasUser (s.registeredOr0 (some ticket.discordId)) := by
      simpa [Database.HasUser, h₁] using hasUser_registeredOr0 hs.hasUser_zero _
    simp only [wp_auditLogInsertWithChain, hkey]
    simpa [Database.HasUser] using huser

/-! ## From the `SELECT` to the transaction -/

theorem Ticket.IdleClaim.later {now later : Timestamp} (hidle : ticket.IdleClaim now)
    (hle : now ≤ later) : ticket.IdleClaim later :=
  ⟨hidle.1, lt_of_lt_of_le hidle.2 (Int.sub_le_sub_right hle _)⟩

theorem Ticket.LongClaim.later {now later : Timestamp} (hlong : ticket.LongClaim now)
    (hle : now ≤ later) : ticket.LongClaim later := by
  obtain ⟨hstatus, claimed, limit, hclaimed, hlimit, hlt⟩ := hlong
  obtain rfl := Option.some.inj hlimit
  exact ⟨hstatus, claimed, _, hclaimed, rfl, lt_of_lt_of_le hlt (Int.sub_le_sub_right hle _)⟩

/-- A release ends an idle claim, unless the claimer has claimed the ticket afresh. -/
theorem releases_idle_iff (hs : s.WellFormed) (hticket : s.ticketOf kind uid = some ticket)
    {selectedAt : Timestamp} (hidle : ticket.IdleClaim selectedAt) (hlater : selectedAt ≤ env.now)
    {claimer : Int} (hclaimer : ticket.claimedBy = some claimer) (before : List Command) :
    ((Call.releaseTicket (some kind.text) (some uid) (some claimer)).Succeeds env
        (run step s before) →
      ∃ ticket', (run step s before).ticketOf kind uid = some ticket' ∧
        ticket'.IdleClaim env.now) ↔
    ∀ at_, (∃ key, env.chainKey = .ok key) →
      lastMove kind uid (steps step s before) = some (.claimed at_ claimer) →
      at_ < env.now - 1800 * 1000000 := by
  obtain ⟨ticket', hticket', hleads⟩ := run_leads hs hticket before
  rw [releaseTicket_succeeds_iff (wellFormed_run hs before) hticket']
  simp only [hticket', Option.some.injEq, exists_eq_left']
  generalize lastMove kind uid (steps step s before) = move at hleads
  cases hleads with
  | stays => simp [hidle.later hlater]
  | @claimed _ at_ cashier hstatus hby hclaimed hactive =>
      simp only [Ticket.IdleClaim, hstatus, hby, hactive, isNe_some, not_not, true_and,
        Option.some.injEq, TicketMove.claimed.injEq]
      constructor
      · rintro hacts _ hkey ⟨rfl, rfl⟩
        exact hacts ⟨rfl, hkey⟩
      · rintro hfresh ⟨rfl, hkey⟩
        exact hfresh _ hkey ⟨rfl, rfl⟩
  | released hstatus => simp [hstatus]
  | finished hstatus =>
      have hunclaimed : ticket'.status ≠ .claimed := by
        rintro heq
        simp [heq, TicketStatus.Terminal] at hstatus
      simp [hunclaimed]

/-- A cancellation ends a long claim, unless the ticket has been released or claimed
afresh. -/
theorem cancels_long_iff (hs : s.WellFormed) (hticket : s.ticketOf kind uid = some ticket)
    {selectedAt : Timestamp} (hlong : ticket.LongClaim selectedAt) (hlater : selectedAt ≤ env.now)
    (actorId : Int) (reason : String) (before : List Command) :
    ((kind.cancelCall uid actorId reason).Succeeds env (run step s before) →
      ∃ ticket', (run step s before).ticketOf kind uid = some ticket' ∧
        ticket'.LongClaim env.now) ↔
    ∀ ticket', (run step s before).ticketOf kind uid = some ticket' →
      (run step s before).CanCancel env kind ticket' →
      lastMove kind uid (steps step s before) ≠ some .released ∧
      ∀ at_ cashier, lastMove kind uid (steps step s before) = some (.claimed at_ cashier) →
        at_ < env.now - 7200 * 1000000 := by
  obtain ⟨ticket', hticket', hleads⟩ := run_leads hs hticket before
  have hsound := wellFormed_run hs before
  simp only [hticket', Option.some.injEq, exists_eq_left', forall_eq']
  generalize lastMove kind uid (steps step s before) = move at hleads
  cases hleads with
  | stays => simp [hlong.later hlater]
  | @claimed _ at_ cashier hstatus hby hclaimed hactive =>
      have hpending : ¬ ticket'.status.Terminal := by simp [hstatus, TicketStatus.Terminal]
      rw [cancelCall_succeeds_iff hsound hticket' hpending]
      simp [Ticket.LongClaim, hstatus, hclaimed]
  | released hstatus =>
      have hpending : ¬ ticket'.status.Terminal := by simp [hstatus, TicketStatus.Terminal]
      rw [cancelCall_succeeds_iff hsound hticket' hpending]
      simp [Ticket.LongClaim, hstatus]
  | finished hstatus =>
      have hfails : ¬ (kind.cancelCall uid actorId reason).Succeeds env (run step s before) := by
        intro hok
        obtain ⟨old, hold, hpending, -⟩ := cancelCall_changes hsound hok
        obtain rfl := Option.some.inj (hold.symm.trans hticket')
        exact hpending hstatus
      simp [hfails]

namespace ClaimIdle

/-- What a tick commits, it commits in one of its passes. -/
theorem mem_acted_tick {t : Schedule} {trial : Database × Command} :
    trial ∈ (tick t s).acted ↔ trial ∈ (pass s (t.releases s)).acted ∨
      (pass s (t.releases s)).error = none ∧
        trial ∈ (pass (longSelected t s) (t.cancels (longSelected t s))).acted := by
  rw [tick, Progress.andThen]
  cases herror : (pass s (t.releases s)).error with
  | none => simp [longSelected]
  | some e => simp

/-- The releases that a tick commits. -/
theorem released_by_tick {t : Schedule} {met : Database} {claimer : Int} :
    (met, .call env (.releaseTicket (some kind.text) (some uid) (some claimer))) ∈
      (tick t s).acted ↔
    ∃ ticket before attempt, s.ticketOf kind uid = some ticket ∧
      ticket.IdleClaim t.idleSelectedAt ∧ ticket.claimedBy = some claimer ∧
      t.release (kind, uid, ticket) = some attempt ∧ ComesTo s (t.releases s) attempt before ∧
      env = t.env.at (t.releasedAt kind uid) ∧ met = run step s before ∧
      (Call.releaseTicket (some kind.text) (some uid) (some claimer)).Succeeds env met := by
  rw [mem_acted_tick, mem_acted_pass, mem_acted_pass]
  constructor
  · rintro (⟨attempt, before, hcomes, htrial, hok⟩ | ⟨-, attempt, before, hcomes, htrial, -⟩)
    · obtain ⟨⟨listed, id, ticket⟩, hrow, hattempt⟩ := List.mem_filterMap.mp hcomes.mem
      obtain ⟨hticket, hidle⟩ := mem_ticketsWhere.mp hrow
      obtain ⟨by_, hby, rfl⟩ := Option.map_eq_some_iff.mp hattempt
      simp only [Prod.mk.injEq, Command.call.injEq, Call.releaseTicket.injEq, Option.some.injEq]
        at htrial
      obtain ⟨rfl, rfl, hkind, rfl, rfl⟩ := htrial
      obtain rfl := TicketType.text_injective hkind
      exact ⟨ticket, before, _, hticket, of_decide_eq_true hidle, hby, hattempt, hcomes, rfl, rfl,
        hok⟩
    · obtain ⟨⟨listed, id, ticket⟩, -, rfl⟩ := List.mem_map.mp hcomes.mem
      cases listed <;> cases htrial
  · rintro ⟨ticket, before, attempt, hticket, hidle, hclaimer, hattempt, hcomes, rfl, rfl, hok⟩
    obtain ⟨by_, hby, rfl⟩ := Option.map_eq_some_iff.mp hattempt
    obtain rfl := Option.some.inj (hby.symm.trans hclaimer)
    exact .inl ⟨_, before, hcomes, rfl, hok⟩

/-- The cancellations that a tick commits. -/
theorem cancelled_by_tick {t : Schedule} {met : Database} {actorId : Int} {reason : String} :
    (met, .call env (kind.cancelCall uid actorId reason)) ∈ (tick t s).acted ↔
    ∃ ticket before, (pass s (t.releases s)).error = none ∧
      (longSelected t s).ticketOf kind uid = some ticket ∧ ticket.LongClaim t.longSelectedAt ∧
      ComesTo (longSelected t s) (t.cancels (longSelected t s)) (t.cancel (kind, uid, ticket))
        before ∧
      actorId = 0 ∧ reason = reasonLongClaim ∧ env = t.env.at (t.cancelledAt kind uid) ∧
      met = run step (longSelected t s) before ∧
      (kind.cancelCall uid actorId reason).Succeeds env met := by
  rw [mem_acted_tick, mem_acted_pass, mem_acted_pass]
  constructor
  · rintro (⟨attempt, before, hcomes, htrial, -⟩ | ⟨hfirst, attempt, before, hcomes, htrial, hok⟩)
    · obtain ⟨⟨listed, id, ticket⟩, -, hattempt⟩ := List.mem_filterMap.mp hcomes.mem
      obtain ⟨by_, -, rfl⟩ := Option.map_eq_some_iff.mp hattempt
      cases kind <;> cases htrial
    · obtain ⟨⟨listed, id, ticket⟩, hrow, rfl⟩ := List.mem_map.mp hcomes.mem
      obtain ⟨hticket, hlong⟩ := mem_ticketsWhere.mp hrow
      obtain ⟨rfl, hcommand⟩ := Prod.mk.inj htrial
      obtain ⟨rfl, hcall⟩ := Command.call.inj hcommand
      have hsame : kind = listed ∧ uid = id ∧ actorId = 0 ∧ reason = reasonLongClaim := by
        cases kind <;> cases listed <;> cases hcall <;> exact ⟨rfl, rfl, rfl, rfl⟩
      obtain ⟨rfl, rfl, rfl, rfl⟩ := hsame
      exact ⟨ticket, before, hfirst, hticket, of_decide_eq_true hlong, hcomes, rfl, rfl, rfl, rfl,
        hok⟩
  · rintro ⟨ticket, before, hfirst, hticket, hlong, hcomes, rfl, rfl, rfl, rfl, hok⟩
    exact .inr ⟨hfirst, _, before, hcomes, rfl, hok⟩

theorem wellFormed_longSelected {t : Schedule} (hs : s.WellFormed) :
    (longSelected t s).WellFormed := by
  obtain ⟨commands, hstate, -⟩ := work_run Command.exec DbError.IsRaise s (t.releases s)
  rw [longSelected, pass, hstate, after_exec]
  exact wellFormed_run (wellFormed_run hs commands) t.between

/-- A tick acts on stale claims only exactly when it finds no fresh claim, or ticket open
again, that its call would end. -/
theorem acts_on_stale_iff (h₀ : s₀.EmptyLedger) (commands : List Command) (t : Schedule) :
    ActsOnStale t (run step s₀ commands) ↔ Undisturbed t (run step s₀ commands) := by
  have hs := wellFormed_run h₀.wellFormed commands
  generalize run step s₀ commands = s at hs
  have hs' : (longSelected t s).WellFormed := wellFormed_longSelected hs
  have hreleasedAt : ∀ kind uid, t.idleSelectedAt ≤ (t.env.at (t.releasedAt kind uid)).now :=
    fun kind uid => Int.le_add_of_nonneg_right (Int.natCast_nonneg _)
  have hcancelledAt : ∀ kind uid, t.longSelectedAt ≤ (t.env.at (t.cancelledAt kind uid)).now :=
    fun kind uid => Int.le_add_of_nonneg_right (Int.natCast_nonneg _)
  constructor
  · intro hacts
    refine ⟨fun ⟨kind, uid, ticket⟩ hrow attempt before claimer at_ hattempt hcomes hclaimer hkey
      hmove => ?_, fun hfirst ⟨kind, uid, ticket⟩ hrow before ticket' hcomes hticket' hcan => ?_⟩
    · obtain ⟨hticket, hidle⟩ := mem_ticketsWhere.mp hrow
      have hidle := of_decide_eq_true hidle
      refine (releases_idle_iff hs hticket hidle (hreleasedAt kind uid) hclaimer before).mp
        (fun hok => ?_) at_ hkey hmove
      exact hacts.released _ _ kind uid claimer (released_by_tick.mpr
        ⟨ticket, before, attempt, hticket, hidle, hclaimer, hattempt, hcomes, rfl, rfl, hok⟩)
    · obtain ⟨hticket, hlong⟩ := mem_ticketsWhere.mp hrow
      have hlong := of_decide_eq_true hlong
      refine (cancels_long_iff hs' hticket hlong (hcancelledAt kind uid) 0 reasonLongClaim
        before).mp (fun hok => ?_) ticket' hticket' hcan
      exact hacts.cancelled _ _ kind uid 0 reasonLongClaim (cancelled_by_tick.mpr
        ⟨ticket, before, hfirst, hticket, hlong, hcomes, rfl, rfl, rfl, rfl, hok⟩)
  · intro hquiet
    refine ⟨fun met env kind uid claimer hacted => ?_,
      fun met env kind uid actorId reason hacted => ?_⟩
    · obtain ⟨ticket, before, attempt, hticket, hidle, hclaimer, hattempt, hcomes, rfl, rfl, hok⟩ :=
        released_by_tick.mp hacted
      refine (releases_idle_iff hs hticket hidle (hreleasedAt kind uid) hclaimer before).mpr
        (fun at_ hkey hmove => ?_) hok
      exact hquiet.release (kind, uid, ticket)
        (mem_ticketsWhere.mpr ⟨hticket, decide_eq_true hidle⟩) attempt before claimer at_ hattempt
        hcomes hclaimer hkey hmove
    · obtain ⟨ticket, before, hfirst, hticket, hlong, hcomes, rfl, rfl, rfl, rfl, hok⟩ :=
        cancelled_by_tick.mp hacted
      refine (cancels_long_iff hs' hticket hlong (hcancelledAt kind uid) 0 reasonLongClaim
        before).mpr (fun ticket' hticket' hcan => ?_) hok
      exact hquiet.cancel hfirst (kind, uid, ticket)
        (mem_ticketsWhere.mpr ⟨hticket, decide_eq_true hlong⟩) before ticket' hcomes hticket' hcan

/-- A tick 31 minutes after the claims, with what others commit before each release. -/
def idleTick (before : List Command) : Schedule :=
  ⟨.plain, 1860000000, 1860000000, fun _ _ => 0, fun _ _ => 0, fun _ _ => before, fun _ _ => [], []⟩

/-- On its own, the tick releases the withdraw that cashier 7 has claimed. -/
theorem acts_on_stale_iff_alone :
    ActsOnStale (idleTick []) (run step .seeded (openedRun ++ [claimWithdraw])) ∧
      (tick (idleTick []) (run step .seeded (openedRun ++ [claimWithdraw]))).acted.length = 1 := by
  refine ⟨(acts_on_stale_iff seeded_empty _ _).mpr ⟨?_, ?_⟩, by decide +kernel⟩
  · intro row _ attempt before claimer at_ hattempt hcomes _ _ hmove
    have hone : ((idleTick []).releases
        (run step .seeded (openedRun ++ [claimWithdraw]))).length = 1 := by
      decide +kernel
    obtain ⟨earlier, later, hsplit, -, rfl⟩ := hcomes
    rw [hsplit, List.length_append, List.length_cons] at hone
    obtain rfl : earlier = [] := List.eq_nil_of_length_eq_zero (by omega)
    obtain ⟨_, -, rfl⟩ := Option.map_eq_some_iff.mp hattempt
    cases hmove
  · intro _ row hrow
    have hnone : ((longSelected (idleTick []) (run step .seeded (openedRun ++ [claimWithdraw]))
        ).ticketsWhere fun ticket => ticket.LongClaim (idleTick []).longSelectedAt).length = 0 := by
      decide +kernel
    rw [List.eq_nil_of_length_eq_zero hnone] at hrow
    cases hrow

/-- After the `SELECT`, cashier 7 has released the withdraw and claimed it again. -/
def reclaim : List Command :=
  [.call (Env.plain.at 1860000000)
      (.releaseTicket (some "withdraw") (some "withdraw-1") (some 7)),
   .call (Env.plain.at 1860000000) (.claimTicket (some "withdraw") (some "withdraw-1") (some 7))]

/-- The tick releases a claim made this very moment. -/
theorem releases_fresh_claim :
    ¬ ActsOnStale (idleTick reclaim) (run step .seeded (openedRun ++ [claimWithdraw])) := by
  intro hacts
  generalize hs : run step .seeded (openedRun ++ [claimWithdraw]) = s at hacts
  have hlisted : (s.ticketOf .withdraw "withdraw-1").any (fun ticket =>
      ticket.IdleClaim 1860000000 ∧ ticket.claimedBy = some 7) = true := by
    rw [← hs]
    decide +kernel
  have hone : ((idleTick reclaim).releases s).length = 1 := by
    rw [← hs]
    decide +kernel
  have hok : (Call.releaseTicket (some TicketType.withdraw.text) (some "withdraw-1")
      (some 7)).Succeeds (Env.plain.at 1860000000) (run step s reclaim) := by
    rw [← hs]
    decide +kernel
  have hfresh : ((run step s reclaim).ticketOf .withdraw "withdraw-1").any (fun ticket =>
      ticket.IdleClaim 1860000000) = false := by
    rw [← hs]
    decide +kernel
  obtain ⟨ticket, hticket, hcolumns⟩ := (Option.any_eq_true _ _).mp hlisted
  obtain ⟨hidle, hclaimer⟩ := of_decide_eq_true hcolumns
  have hattempt : (idleTick reclaim).release (.withdraw, "withdraw-1", ticket) =
      some ⟨reclaim, .call (Env.plain.at 1860000000)
        (.releaseTicket (some TicketType.withdraw.text) (some "withdraw-1") (some 7))⟩ := by
    rw [Schedule.release, hclaimer]
    rfl
  have hcomes : ComesTo s ((idleTick reclaim).releases s) ⟨reclaim, .call (Env.plain.at 1860000000)
      (.releaseTicket (some TicketType.withdraw.text) (some "withdraw-1") (some 7))⟩ reclaim := by
    obtain ⟨attempt, hattempts⟩ := List.length_eq_one_iff.mp hone
    have hrow : (.withdraw, "withdraw-1", ticket) ∈ s.ticketsWhere fun ticket =>
        ticket.IdleClaim (idleTick reclaim).idleSelectedAt :=
      mem_ticketsWhere.mpr ⟨hticket, decide_eq_true hidle⟩
    have hmem := List.mem_filterMap.mpr ⟨_, hrow, hattempt⟩
    rw [← Schedule.releases, hattempts, List.mem_singleton] at hmem
    exact ⟨[], [], by rw [hattempts, hmem]; rfl, rfl, rfl⟩
  obtain ⟨ticket', hticket', hidle'⟩ := hacts.released _ _ .withdraw "withdraw-1" 7
    (released_by_tick.mpr ⟨ticket, reclaim, _, hticket, hidle, hclaimer, hattempt, hcomes, rfl, rfl,
      hok⟩)
  rw [hticket', Option.any_some, decide_eq_false_iff_not] at hfresh
  exact hfresh hidle'

end ClaimIdle

end DeathRoll
