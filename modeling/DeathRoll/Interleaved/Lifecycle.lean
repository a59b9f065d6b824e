import DeathRoll.Interleaved.Statistics

/-! # Ticket lifecycle under concurrency

A ticket is moved by commits, and a commit moves it along an edge of the status
machine or leaves it alone. So in every interleaving of the calls on tickets status
and columns go together, what is confirmed or cancelled never changes, and the cashier
who confirms is the one whose claim was the last to commit.
-/

namespace DeathRoll.Interleaved

open Relational Script

variable {τ : Type} {env : Env} {call : TicketCall}
variable {before after : LedgerRows} {k : TicketType × String} {uid : String}

/-! ## One commit -/

theorem claimsNone_of_cancels {actor : Option Int} (hcall : call.cancels = some (k, actor)) :
    call.ClaimsNone := by
  rw [claimsNone_iff]
  rintro kind uid cashier rfl
  cases hcall

theorem openPayout_of_ne {other : TicketType × String} (hk : k ≠ other) (hkind : k.1 = .withdraw)
    (fee : Int) (payouts : String → Option (Int × Option Int)) :
    openPayout other fee payouts k.2 = payouts k.2 := by
  rcases other with ⟨_ | _, uid⟩
  · rfl
  · exact Function.update_of_ne (fun huid => hk (Prod.ext hkind huid)) _ _

theorem deliverPayout_of_ne {other : TicketType × String} (hk : k ≠ other)
    (hkind : k.1 = .withdraw) (amount : Int) (payouts : String → Option (Int × Option Int)) :
    deliverPayout other amount payouts k.2 = payouts k.2 := by
  rcases other with ⟨_ | _, uid⟩
  · rfl
  · exact Function.update_of_ne (fun huid => hk (Prod.ext hkind huid)) _ _

theorem deliverPayout_self (hkind : k.1 = .withdraw) (amount : Int)
    (payouts : String → Option (Int × Option Int)) :
    deliverPayout k amount payouts k.2 =
      (payouts k.2).map fun (fee, _) => (fee, some (amount - fee)) := by
  rcases k with ⟨_ | _, uid⟩
  · cases hkind
  · exact Function.update_self _ _ _

/-- What a commit does to a ticket: a move, in which a payout is written exactly when a
withdraw is confirmed. -/
structure TicketMoves (env : Env) (call : TicketCall) (before after : LedgerRows)
    (k : TicketType × String) (ticket ticket' : Ticket) : Prop where
  move : ticket.Move env.now k.1 k.2 call.call ticket'
  payout : k.1 = .withdraw →
    payoutAt after k.2 = payoutAt before k.2 ∧
        (ticket'.status = .confirmed → ticket.status = .confirmed) ∨
      ticket.status = .claimed ∧ ticket'.status = .confirmed ∧
        payoutAt after k.2 =
          (payoutAt before k.2).map fun (fee, _) => (fee, some (ticket.amount - fee))

theorem TicketMoves.stay {ticket : Ticket}
    (hcall : ∀ cashier, call.call ≠ k.1.claimCall k.2 cashier)
    (hpayout : k.1 = .withdraw → payoutAt after k.2 = payoutAt before k.2) :
    TicketMoves env call before after k ticket ticket :=
  ⟨.stay hcall, fun hkind => .inl ⟨hpayout hkind, id⟩⟩

/-- The ticket that a call is about has moved, and the others are where they were. -/
theorem moves_of_update {other : TicketType × String} {old new ticket : Ticket}
    (hticket : ticketAt before k = some ticket) (hold : ticketAt before other = some old)
    (htickets : ticketAt after = Function.update (ticketAt before) other (some new))
    (hmove : k = other → TicketMoves env call before after k old new)
    (hstay : k ≠ other → TicketMoves env call before after k ticket ticket) :
    ∃ ticket', ticketAt after k = some ticket' ∧
      TicketMoves env call before after k ticket ticket' := by
  by_cases hk : k = other
  · subst hk
    obtain rfl := Option.some.inj (hold.symm.trans hticket)
    exact ⟨new, by rw [htickets, Function.update_self], hmove rfl⟩
  · exact ⟨ticket, by rw [htickets, Function.update_of_ne hk, hticket], hstay hk⟩

/-- Every ticket makes a move when a call commits. -/
theorem TicketWrites.moves (h : TicketWrites env call before after) {ticket : Ticket}
    (hticket : ticketAt before k = some ticket) :
    ∃ ticket', ticketAt after k = some ticket' ∧
      TicketMoves env call before after k ticket ticket' := by
  cases h with
  | same hcall htickets hstats hpayouts hclaims =>
      exact ⟨ticket, by rw [htickets, hticket], .stay (hclaims k.1 k.2) fun _ => by rw [hpayouts]⟩
  | @opened other new hcall hnew hfresh htickets hstats hpayouts hclaims =>
      have hk : k ≠ other := by
        rintro rfl
        rw [hnew] at hticket
        cases hticket
      obtain ⟨fee, hpayouts⟩ := hpayouts
      refine ⟨ticket, by rw [htickets, Function.update_of_ne hk, hticket],
        .stay (hclaims k.1 k.2) fun hkind => ?_⟩
      rw [hpayouts, openPayout_of_ne hk hkind]
  | claimed hcall hold hstatus htickets hstats hpayouts hclaims =>
      refine moves_of_update hticket hold htickets ?_
        fun hother => .stay (fun cashier hclaim => ?_) fun _ => by rw [hpayouts]
      · rintro rfl
        exact ⟨.claim _ hclaims hstatus, fun _ => .inl ⟨by rw [hpayouts], by simp⟩⟩
      · exact hother (claimCall_inj (hclaims.symm.trans hclaim)).1.symm
  | released hcall hold hstatus htickets hstats hpayouts hclaims =>
      refine moves_of_update hticket hold htickets ?_
        fun _ => .stay (hclaims k.1 k.2) fun _ => by rw [hpayouts]
      rintro rfl
      exact ⟨.release (hclaims k.1 k.2) hstatus, fun _ => .inl ⟨by rw [hpayouts], by simp⟩⟩
  | confirmed hcall hold hstatus hclaimed htickets hstats hpayouts hconfirms =>
      refine moves_of_update hticket hold htickets ?_
        fun hother => .stay (fun cashier hclaim => ?_) fun hkind => ?_
      · rintro rfl
        refine ⟨.confirm _ hconfirms (fun _ => eq_of_not_isNe hclaimed) hstatus, fun hkind => ?_⟩
        exact .inr ⟨hstatus, rfl, by rw [hpayouts, deliverPayout_self hkind]⟩
      · exact confirmCall_ne_claimCall (hconfirms.symm.trans hclaim)
      · rw [hpayouts, deliverPayout_of_ne hother hkind]
  | cancelled hcall hold hstatus htickets hstats hpayouts =>
      have hclaims := claimsNone_of_cancels hcall
      refine moves_of_update hticket hold htickets ?_
        fun _ => .stay (hclaims k.1 k.2) fun _ => by rw [hpayouts]
      rintro rfl
      exact ⟨.cancel _ (hclaims k.1 k.2) hstatus, fun _ => .inl ⟨by rw [hpayouts], by simp⟩⟩

/-- A ticket that a commit brings is untouched, and nothing is delivered on it. -/
theorem TicketWrites.origin (h : TicketWrites env call before after) {ticket : Ticket}
    (hnone : ticketAt before k = none) (hticket : ticketAt after k = some ticket) :
    ticket.Fresh ∧ (k.1 = .withdraw → ∃ fee, payoutAt after k.2 = some (fee, none)) := by
  have hupdate : ∀ {other : TicketType × String} {old new : Ticket} {p : Prop},
      ticketAt before other = some old →
      ticketAt after = Function.update (ticketAt before) other (some new) → p := by
    intro other old new p hold htickets
    have hk : k ≠ other := by
      rintro rfl
      rw [hnone] at hold
      cases hold
    rw [htickets, Function.update_of_ne hk, hnone] at hticket
    cases hticket
  cases h with
  | same hcall htickets =>
      rw [htickets, hnone] at hticket
      cases hticket
  | @opened other new hcall hnew hfresh htickets hstats hpayouts =>
      by_cases hk : k = other
      · subst hk
        rw [htickets, Function.update_self, Option.some.injEq] at hticket
        obtain ⟨fee, hpayouts⟩ := hpayouts
        refine ⟨hticket ▸ hfresh, fun hkind => ⟨fee, ?_⟩⟩
        rw [hpayouts]
        rcases k with ⟨_ | _, uid⟩
        · cases hkind
        · exact Function.update_self _ _ _
      · rw [htickets, Function.update_of_ne hk, hnone] at hticket
        cases hticket
  | claimed hcall hold hstatus htickets => exact hupdate hold htickets
  | released hcall hold hstatus htickets => exact hupdate hold htickets
  | confirmed hcall hold hstatus hclaimed htickets => exact hupdate hold htickets
  | cancelled hcall hold hstatus htickets => exact hupdate hold htickets

theorem payoutAt_eq {rows : LedgerRows} {w : WithdrawTicket} (hw : rows (.withdraw uid) = some w) :
    payoutAt rows uid = some (w.fee, w.amountDelivered) := by
  rw [payoutAt, hw, Option.map_some]

/-- The move of a withdraw, with all its columns. -/
theorem TicketWrites.withdraw_moves (h : TicketWrites env call before after) {w : WithdrawTicket}
    (hw : before (.withdraw uid) = some w) :
    ∃ w', after (.withdraw uid) = some w' ∧ Ledger.WithdrawMove env.now uid call.call w w' := by
  obtain ⟨ticket', hticket', hmoves⟩ := h.moves (ticketAt_withdraw hw)
  obtain ⟨w', hw', rfl⟩ := Option.map_eq_some_iff.mp hticket'
  have hpayout := hmoves.payout rfl
  simp only [payoutAt_eq hw, payoutAt_eq hw', Option.map_some, Option.some.injEq,
    Prod.mk.injEq] at hpayout
  refine ⟨w', hw', hmoves.move, ?_, ?_⟩
  · rcases hpayout with ⟨⟨hfee, -⟩, -⟩ | ⟨-, -, hfee, -⟩
    · exact hfee
    · exact hfee
  · rcases hpayout with ⟨⟨-, hsame⟩, hback⟩ | ⟨hclaimed, hconfirmed, -, hwritten⟩
    · exact .inl ⟨hsame, hback⟩
    · exact .inr ⟨hclaimed, hconfirmed, hwritten⟩

/-! ## Columns -/

/-- The columns of every ticket agree with its status. -/
structure TicketsAgree (rows : LedgerRows) : Prop where
  shared : TicketsConsistent rows
  withdraw : ∀ uid w, rows (.withdraw uid) = some w → w.Consistent

theorem TicketWrites.agree (h : TicketWrites env call before after) (hagree : TicketsAgree before) :
    TicketsAgree after := by
  refine ⟨h.consistent hagree.shared, fun uid w' hw' => ?_⟩
  cases hw : before (.withdraw uid) with
  | some w =>
      obtain ⟨moved, hmoved, hmove⟩ := h.withdraw_moves hw
      obtain rfl := Option.some.inj (hmoved.symm.trans hw')
      exact hmove.consistent (hagree.withdraw uid w hw)
  | none =>
      have hnone : ticketAt before (.withdraw, uid) = none := by simp [ticketAt, hw]
      obtain ⟨hfresh, hpayout⟩ := h.origin hnone (ticketAt_withdraw hw')
      obtain ⟨fee, hpayout⟩ := hpayout rfl
      rw [payoutAt_eq hw', Option.some.injEq, Prod.mk.injEq] at hpayout
      have hdelivered := hpayout.2
      refine ⟨hfresh.consistent, ?_, by simp [hdelivered], w'.fee_nonneg⟩
      simp [hdelivered, hfresh.status]

theorem ticketsAgree_start (hstart : ∀ k, ticketAt before k = none) : TicketsAgree before where
  shared := fun k ticket hticket => by
    rw [hstart] at hticket
    cases hticket
  withdraw := fun uid w hw => by
    have hnone := hstart (.withdraw, uid)
    rw [ticketAt_withdraw hw] at hnone
    cases hnone

/-! ## The last claim -/

/-- The cashier for whom a commit claims the ticket. -/
def claimOf (k : TicketType × String) (taken : (Env × TicketCall) × LedgerRows) : Option Int :=
  match taken.1.2 with
  | .claimTicket (some kind) (some uid) (some cashier) =>
      if kind = k.1.text ∧ uid = k.2 then some cashier else none
  | _ => none

/-- The cashier of the last claim to commit. -/
def lastClaimer (k : TicketType × String) (past : List ((Env × TicketCall) × LedgerRows)) :
    Option Int :=
  (past.filterMap (claimOf k)).getLast?

theorem claimOf_eq_none (hcall : ∀ cashier, call.call ≠ k.1.claimCall k.2 cashier) :
    claimOf k ((env, call), before) = none := by
  unfold claimOf
  split
  next kind uid cashier heq =>
    refine if_neg fun hclaim => hcall cashier ?_
    dsimp only at heq
    rw [heq, hclaim.1, hclaim.2]
    rfl
  next => rfl

theorem claimOf_claimCall {cashier : Int} (hcall : call.call = k.1.claimCall k.2 cashier) :
    claimOf k ((env, call), before) = some cashier := by
  cases call <;> simp [TicketCall.call, claimCall_eq] at hcall
  obtain ⟨rfl, rfl, rfl⟩ := hcall
  exact if_pos ⟨rfl, rfl⟩

theorem lastClaimer_append_singleton (past : List ((Env × TicketCall) × LedgerRows))
    (taken : (Env × TicketCall) × LedgerRows) :
    lastClaimer k (past ++ [taken]) = (claimOf k taken).or (lastClaimer k past) := by
  unfold lastClaimer
  rw [List.filterMap_append]
  cases hclaim : claimOf k taken with
  | none => simp [hclaim]
  | some cashier => simp [hclaim]

/-- A claimed ticket names the cashier of its last claim. -/
def ClaimersNamed (past : List ((Env × TicketCall) × LedgerRows)) (rows : LedgerRows) : Prop :=
  ∀ k ticket, ticketAt rows k = some ticket → ticket.status = .claimed →
    ticket.claimedBy = lastClaimer k past

theorem ClaimersNamed.step {past : List ((Env × TicketCall) × LedgerRows)}
    (h : ClaimersNamed past before) (hwrites : TicketWrites env call before after) :
    ClaimersNamed (past ++ [((env, call), before)]) after := by
  intro k ticket' hticket' hclaimed
  rw [lastClaimer_append_singleton]
  cases hticket : ticketAt before k with
  | none =>
      rw [(hwrites.origin hticket hticket').1.status] at hclaimed
      cases hclaimed
  | some ticket =>
      obtain ⟨moved, hmoved, hmoves⟩ := hwrites.moves hticket
      obtain rfl := Option.some.inj (hmoved.symm.trans hticket')
      cases hmoves.move with
      | stay hcall => rw [claimOf_eq_none hcall, Option.none_or, h k ticket hticket hclaimed]
      | claim cashier hcall hstatus => rw [claimOf_claimCall hcall, Option.some_or]; rfl
      | release hcall hstatus => simp at hclaimed
      | confirm cashier hcall hcashier hstatus => simp at hclaimed
      | cancel reason hcall hstatus => simp at hclaimed

/-! ## Every interleaving -/

section Run

variable [DecidableEq τ] {world : TicketWorld τ} {base : LedgerRows}

/-- A move commits a call, or the committed rows stay. -/
theorem step_writes (hworld : world.Sound ledgerSchema base ticketBody)
    (move : Move τ (Env × TicketCall)) :
    (∃ env call, world.commits move = some ((env, call), ()) ∧
      TicketWrites env call world.committed (world.step ticketBody move).committed) ∨
    (world.step ticketBody move).committed = world.committed := by
  cases hcommits : world.commits move with
  | none => exact .inr (Concurrent.committed_step_of_commits_eq_none ticketBody hcommits)
  | some taken =>
      obtain ⟨⟨env, call⟩, ⟨⟩⟩ := taken
      exact .inl ⟨env, call, rfl, hworld.commits_acts ticketBody_describes hcommits⟩

/-- What every commit keeps is kept by any further interleaving. -/
theorem keeps_run (inv : LedgerRows → Prop) (hworld : world.Sound ledgerSchema base ticketBody)
    (hkeep : ∀ env call before after, TicketWrites env call before after → inv before → inv after)
    (hinv : inv world.committed) (later : List (Move τ (Env × TicketCall))) :
    inv (run (Concurrent.step ticketBody) world later).committed := by
  exact hworld.invariant_run ticketBody_describes (fun _ _ _ _ => trivial)
    (fun call before result after _ _ hwrites => hkeep call.1 call.2 before after hwrites) hinv
    fun move _ => Concurrent.admits_of_forall (fun _ => trivial) move

/-- A confirmed or cancelled ticket stays as it is. -/
theorem ticketAt_final (hworld : world.Sound ledgerSchema base ticketBody) {ticket : Ticket}
    (hticket : ticketAt world.committed k = some ticket) (hterminal : ticket.status.Terminal)
    (later : List (Move τ (Env × TicketCall))) :
    ticketAt (run (Concurrent.step ticketBody) world later).committed k = some ticket := by
  refine keeps_run (fun rows => ticketAt rows k = some ticket) hworld ?_ hticket later
  intro env call before after hwrites hticket
  obtain ⟨ticket', hticket', hmoves⟩ := hwrites.moves hticket
  rw [hticket', hmoves.move.terminal hterminal]

theorem withdraw_final (hworld : world.Sound ledgerSchema base ticketBody) {w : WithdrawTicket}
    (hw : world.committed (.withdraw uid) = some w) (hterminal : w.status.Terminal)
    (later : List (Move τ (Env × TicketCall))) :
    (run (Concurrent.step ticketBody) world later).committed (.withdraw uid) = some w := by
  refine keeps_run (fun rows => rows (.withdraw uid) = some w) hworld ?_ hw later
  intro env call before after hwrites hw
  obtain ⟨w', hw', hmove⟩ := hwrites.withdraw_moves hw
  rw [hw', hmove.terminal hterminal]

/-- A ticket keeps the amount it was created with. -/
theorem ticketAt_amount (hworld : world.Sound ledgerSchema base ticketBody) {ticket : Ticket}
    (hticket : ticketAt world.committed k = some ticket)
    (later : List (Move τ (Env × TicketCall))) :
    ∃ ticket', ticketAt (run (Concurrent.step ticketBody) world later).committed k = some ticket' ∧
      ticket'.amount = ticket.amount := by
  refine keeps_run
    (fun rows => ∃ ticket', ticketAt rows k = some ticket' ∧ ticket'.amount = ticket.amount)
    hworld ?_ ⟨ticket, hticket, rfl⟩ later
  rintro env call before after hwrites ⟨old, hold, hamount⟩
  obtain ⟨ticket', hticket', hmoves⟩ := hwrites.moves hold
  exact ⟨ticket', hticket', hmoves.move.amount.trans hamount⟩

/-- A withdraw keeps the fee it was created with. -/
theorem withdraw_fee (hworld : world.Sound ledgerSchema base ticketBody) {w : WithdrawTicket}
    (hw : world.committed (.withdraw uid) = some w) (later : List (Move τ (Env × TicketCall))) :
    ∃ w', (run (Concurrent.step ticketBody) world later).committed (.withdraw uid) = some w' ∧
      w'.fee = w.fee := by
  refine keeps_run (fun rows => ∃ w', rows (.withdraw uid) = some w' ∧ w'.fee = w.fee)
    hworld ?_ ⟨w, hw, rfl⟩ later
  rintro env call before after hwrites ⟨old, hold, hfee⟩
  obtain ⟨w', hw', hmove⟩ := hwrites.withdraw_moves hold
  exact ⟨w', hw', hmove.fee.trans hfee⟩

end Run

/-- What holds of the tickets in a world, of the next move and of every run on, when these
calls have committed so far. -/
structure TicketLifecycle [DecidableEq τ] (world : TicketWorld τ)
    (past : List ((Env × TicketCall) × LedgerRows)) : Prop where
  /-- Status and columns agree, for both kinds of ticket. -/
  agree : TicketsAgree world.committed
  /-- The next move opens a ticket that nobody has touched. -/
  fresh : ∀ move k ticket, ticketAt world.committed k = none →
    ticketAt (world.step ticketBody move).committed k = some ticket → ticket.Fresh
  /-- The next move keeps a ticket's status or follows an edge. -/
  edge : ∀ move k ticket, ticketAt world.committed k = some ticket →
    ∃ ticket', ticketAt (world.step ticketBody move).committed k = some ticket' ∧
      (ticket'.status = ticket.status ∨ ticket.status.Edge ticket'.status)
  /-- A confirmed or cancelled ticket never changes again, in any column. -/
  final : ∀ later k ticket, ticketAt world.committed k = some ticket → ticket.status.Terminal →
    ticketAt (run (Concurrent.step ticketBody) world later).committed k = some ticket
  final_withdraw : ∀ later uid w, world.committed (.withdraw uid) = some w → w.status.Terminal →
    (run (Concurrent.step ticketBody) world later).committed (.withdraw uid) = some w
  /-- Amount and fee stay as they were written when the ticket was created. -/
  amount : ∀ later k ticket, ticketAt world.committed k = some ticket →
    ∃ ticket', ticketAt (run (Concurrent.step ticketBody) world later).committed k = some ticket' ∧
      ticket'.amount = ticket.amount
  fee : ∀ later uid w, world.committed (.withdraw uid) = some w →
    ∃ w', (run (Concurrent.step ticketBody) world later).committed (.withdraw uid) = some w' ∧
      w'.fee = w.fee
  /-- The cashier who confirms is the one of the last claim. -/
  confirmer : ∀ move k ticket ticket', ticketAt world.committed k = some ticket →
    ticket.status = .claimed →
    ticketAt (world.step ticketBody move).committed k = some ticket' →
    ticket'.status = .confirmed →
    ∃ env call cashier, world.commits move = some ((env, call), ()) ∧
      call.call = k.1.confirmCall k.2 cashier ∧ ticket.claimedBy = some cashier ∧
      lastClaimer k past = some cashier

/-- Tickets follow the status machine in every interleaving of the calls that create, claim,
release, confirm and cancel them, whoever makes them and whatever configuration they read. -/
theorem ticket_lifecycle [DecidableEq τ] {keys : List LedgerKey} {rows : LedgerRows}
    (hdb : Migrated keys rows) (hstart : ∀ k, ticketAt rows k = none)
    (moves : List (Move τ (Env × TicketCall))) :
    TicketLifecycle (run (Concurrent.step ticketBody) (.quiet keys rows) moves)
      (Concurrent.history ticketBody (.quiet keys rows : TicketWorld τ) moves) := by
  have hworld := Concurrent.sound_run ticketBody_describes hdb.toConsistent moves
  have hagree :
      TicketsAgree (run (Concurrent.step ticketBody) (.quiet keys rows) moves).committed :=
    Concurrent.committed_run ticketBody_describes (fun _ _ _ _ _ hwrites h => hwrites.agree h)
      hdb.toConsistent (ticketsAgree_start hstart) moves
  have hnamed : ClaimersNamed (Concurrent.history ticketBody (.quiet keys rows) moves)
      (run (Concurrent.step ticketBody) (.quiet keys rows) moves).committed := by
    refine Concurrent.committed_history ticketBody_describes
      (fun _ _ _ _ _ hwrites h => h.step hwrites) hdb.toConsistent ?_ moves
    intro k ticket hticket
    rw [hstart] at hticket
    cases hticket
  constructor
  case agree => exact hagree
  case fresh =>
    intro move k ticket hnone hticket
    rcases step_writes hworld move with ⟨env, call, -, hwrites⟩ | hsame
    · exact (hwrites.origin hnone hticket).1
    · rw [hsame, hnone] at hticket
      cases hticket
  case edge =>
    intro move k ticket hticket
    rcases step_writes hworld move with ⟨env, call, -, hwrites⟩ | hsame
    · obtain ⟨ticket', hticket', hmoves⟩ := hwrites.moves hticket
      exact ⟨ticket', hticket', hmoves.move.edge (hagree.shared k ticket hticket)⟩
    · exact ⟨ticket, by rw [hsame, hticket], .inl rfl⟩
  case final =>
    exact fun later k ticket hticket hterminal => ticketAt_final hworld hticket hterminal later
  case final_withdraw =>
    exact fun later uid w hw hterminal => withdraw_final hworld hw hterminal later
  case amount => exact fun later k ticket hticket => ticketAt_amount hworld hticket later
  case fee => exact fun later uid w hw => withdraw_fee hworld hw later
  case confirmer =>
    intro move k ticket ticket' hticket hclaimed hticket' hconfirmed
    have hcolumns := hagree.shared k ticket hticket
    obtain ⟨claimer, hclaimer⟩ := Option.ne_none_iff_exists'.mp (hcolumns.claimed (.inl hclaimed)).1
    rcases step_writes hworld move with ⟨env, call, hcommits, hwrites⟩ | hsame
    · obtain ⟨moved, hmoved, hmoves⟩ := hwrites.moves hticket
      obtain rfl := Option.some.inj (hmoved.symm.trans hticket')
      cases hmoves.move with
      | confirm cashier hcall hcashier hstatus =>
          obtain rfl := hcashier claimer hclaimer
          exact ⟨env, call, claimer, hcommits, hcall, hclaimer,
            (hnamed k ticket hticket hclaimed).symm.trans hclaimer⟩
      | stay hcall => simp [hclaimed] at hconfirmed
      | claim cashier hcall hstatus => simp at hconfirmed
      | release hcall hstatus => simp at hconfirmed
      | cancel reason hcall hstatus => simp at hconfirmed
    · rw [hsame, hticket, Option.some.injEq] at hticket'
      subst hticket'
      rw [hclaimed] at hconfirmed
      cases hconfirmed

/-- A deposit and a withdraw are claimed, and confirmed at the same time. -/
theorem ticket_lifecycle_confirming :
    TicketLifecycle (ticketRun confirmingMoves)
      (Concurrent.history ticketBody ticketStart confirmingMoves) :=
  ticket_lifecycle ticketEntries_migrated ticketEntries_noTickets.ticketAt_eq confirmingMoves

example : lastClaimer (.withdraw, "withdraw-1")
    (Concurrent.history ticketBody ticketStart confirmingMoves) = some 7 := by
  decide +kernel

end DeathRoll.Interleaved
