import DeathRoll.Interleaved.Tickets
import DeathRoll.Relational.Recount
import Mathlib.Algebra.BigOperators.Pi

/-! # Cashier statistics

`dw.cashier_stats` is counted up at the end of the calls that close a ticket. What it
says of completed tickets is what a recomputation from the tickets gives. Of the
cancelled ones it counts the withdraws and forgets the deposits.
-/

namespace DeathRoll.Interleaved

open Relational Script

variable {τ : Type} [DecidableEq τ] {env : Env} {call : TicketCall}
variable {keys : List LedgerKey} {rows before after : LedgerRows}

/-- Any number of calls on tickets, interleaved statement by statement. -/
abbrev TicketWorld (τ : Type) := Concurrent τ (Env × TicketCall) LedgerKey.Row DbError Unit

/-- No ticket has been opened and no cashier has closed one. -/
structure NoTickets (rows : LedgerRows) : Prop where
  deposits : ∀ uid, rows (.deposit uid) = none
  withdraws : ∀ uid, rows (.withdraw uid) = none
  stats : ∀ cashier, rows (.cashierStats cashier) = none

theorem NoTickets.ticketAt_eq (h : NoTickets rows) (k : TicketType × String) :
    ticketAt rows k = none := by
  rcases k with ⟨kind, uid⟩
  cases kind with
  | deposit => exact h.deposits uid
  | withdraw => simp [ticketAt, h.withdraws uid]

theorem NoTickets.statsAt_eq (h : NoTickets rows) (cashier : Int) : statsAt rows cashier = {} := by
  rw [statsAt, h.stats]
  rfl

/-- The tickets under the keys of a scan. -/
def ticketKeys (keys : List LedgerKey) : Finset (TicketType × String) :=
  (keys.filterMap fun
    | .deposit uid => some (.deposit, uid)
    | .withdraw uid => some (.withdraw, uid)
    | _ => none).toFinset

theorem covers_ticketKeys (h : ∀ r, rows r ≠ none → r ∈ keys) :
    Covers (ticketKeys keys) (ticketAt rows) := by
  rintro ⟨kind, uid⟩ hticket
  rw [ticketKeys, List.mem_toFinset, List.mem_filterMap]
  cases kind with
  | deposit => exact ⟨.deposit uid, h _ hticket, rfl⟩
  | withdraw =>
      refine ⟨.withdraw uid, h _ fun hnone => hticket ?_, rfl⟩
      simp [ticketAt, hnone]

/-- The columns of every ticket agree with its status. -/
def TicketsConsistent (rows : LedgerRows) : Prop :=
  ∀ k ticket, ticketAt rows k = some ticket → ticket.Consistent

theorem TicketWrites.consistent (h : TicketWrites env call before after)
    (hcons : TicketsConsistent before) : TicketsConsistent after := by
  have hupdate : ∀ k (new : Ticket), new.Consistent →
      ticketAt after = Function.update (ticketAt before) k (some new) →
      TicketsConsistent after := by
    intro k new hnew htickets other ticket hticket
    rw [htickets] at hticket
    by_cases hother : other = k
    · subst hother
      rw [Function.update_self, Option.some.injEq] at hticket
      exact hticket ▸ hnew
    · rw [Function.update_of_ne hother] at hticket
      exact hcons other ticket hticket
  cases h with
  | same hcall htickets hstats => exact fun k ticket hticket => hcons k ticket (htickets ▸ hticket)
  | opened hcall hnew hfresh htickets hstats => exact hupdate _ _ hfresh.consistent htickets
  | claimed hcall hticket hstatus htickets hstats =>
      exact hupdate _ _ ((hcons _ _ hticket).claim hstatus env.now _) htickets
  | released hcall hticket hstatus htickets hstats =>
      exact hupdate _ _ ((hcons _ _ hticket).release hstatus env.now) htickets
  | confirmed hcall hticket hstatus hclaimed htickets hstats =>
      exact hupdate _ _ ((hcons _ _ hticket).confirm hstatus env.now) htickets
  | cancelled hcall hticket hstatus htickets hstats =>
      exact hupdate _ _ ((hcons _ _ hticket).cancel hstatus env.now _) htickets

/-- What a counting step leaves alone is left alone for every cashier. -/
theorem apply_update_eq {α β γ : Type*} [DecidableEq α] {f : β → γ} {g : α → β} {a : α} {new : β}
    (hnew : f new = f (g a)) (other : α) : f (Function.update g a new other) = f (g other) := by
  by_cases hother : other = a
  · subst hother
    rw [Function.update_self, hnew]
  · rw [Function.update_of_ne hother]

/-! ## Completed tickets -/

/-- A ticket that the cashier has confirmed. -/
def completedBy (cashier : Int) (ticket : Option Ticket) : Bool :=
  ticket.any fun ticket => ticket.status = .confirmed ∧ ticket.claimedBy = some cashier

/-- The amount of a ticket, 0 without one. -/
def amountAt (ticket : Option Ticket) : Int := (ticket.map Ticket.amount).getD 0

/-- Completed deposits, completed withdraws and volume. -/
def completions (stats : CashierStatsRow) : Int × Int × Int :=
  (stats.depositsCompleted, stats.withdrawsCompleted, stats.totalVolumeG)

/-- What a ticket contributes to the completions of a cashier. -/
def completion (cashier : Int) (k : TicketType × String) (ticket : Option Ticket) :
    Int × Int × Int :=
  if completedBy cashier ticket then
    (if k.1 = .deposit then 1 else 0, if k.1 = .withdraw then 1 else 0, amountAt ticket)
  else 0

theorem completion_of_ne {k : TicketType × String} {ticket : Option Ticket}
    (hlive : ∀ row, ticket = some row → row.status ≠ .confirmed) (cashier : Int) :
    completion cashier k ticket = 0 := by
  cases ticket with
  | none => rfl
  | some row => simp [completion, completedBy, hlive row rfl]

theorem completions_addCompleted {k : TicketType × String} {ticket : Ticket} {cashier : Int}
    (hstatus : ticket.status = .confirmed) (hclaimed : ticket.claimedBy = some cashier)
    (now : Timestamp) (stats : CashierStatsRow) :
    completions (addCompleted k.1 ticket.amount now stats) =
      completions stats + completion cashier k (some ticket) := by
  rcases k with ⟨kind, uid⟩
  cases kind <;>
    simp [completions, addCompleted, completion, completedBy, amountAt, hstatus, hclaimed]

theorem completions_addCancelledWithdraw (now : Timestamp) (stats : CashierStatsRow) :
    completions (addCancelledWithdraw now stats) = completions stats := rfl

/-- What the counters say of completed tickets is what the tickets add up to. -/
structure CompletionsCounted (rows : LedgerRows) : Prop where
  consistent : TicketsConsistent rows
  sums : ∀ cashier,
    SumsTo (completion cashier) (ticketAt rows) (completions (statsAt rows cashier))

theorem CompletionsCounted.step (h : CompletionsCounted before)
    (hwrites : TicketWrites env call before after) : CompletionsCounted after := by
  refine ⟨hwrites.consistent h.consistent, fun cashier => ?_⟩
  have hsums := h.sums cashier
  have hlive : ∀ k (new : Ticket), new.status ≠ .confirmed →
      (∀ old, ticketAt before k = some old → old.status ≠ .confirmed) →
      ticketAt after = Function.update (ticketAt before) k (some new) →
      completions (statsAt after cashier) = completions (statsAt before cashier) →
      SumsTo (completion cashier) (ticketAt after) (completions (statsAt after cashier)) := by
    intro k new hnew hold htickets hstats
    have hmoved := hsums.update k new
    rw [completion_of_ne (fun row hrow => by cases hrow; exact hnew), completion_of_ne hold, sub_self,
      add_zero] at hmoved
    rwa [htickets, hstats]
  cases hwrites with
  | same hcall htickets hstats => rwa [htickets, hstats]
  | opened hcall hnew hfresh htickets hstats =>
      refine hlive _ _ (by simp [hfresh.status]) (by simp [hnew]) htickets (by rw [hstats])
  | claimed hcall hticket hstatus htickets hstats =>
      exact hlive _ _ (by simp) (by simp [hticket, hstatus]) htickets (by rw [hstats])
  | released hcall hticket hstatus htickets hstats =>
      exact hlive _ _ (by simp) (by simp [hticket, hstatus]) htickets (by rw [hstats])
  | @confirmed k ticket confirmer hcall hticket hstatus hclaimed htickets hstats =>
      have hcons := h.consistent k ticket hticket
      obtain ⟨claimer, hclaimer⟩ := Option.ne_none_iff_exists'.mp (hcons.claimed (.inl hstatus)).1
      obtain rfl : claimer = confirmer := eq_of_not_isNe hclaimed hclaimer
      have hmoved := hsums.update k (ticket.confirm env.now)
      have hold : completion cashier k (some ticket) = 0 :=
        completion_of_ne (by simp [hstatus]) cashier
      rw [hticket, hold, sub_zero, ← htickets] at hmoved
      rw [hstats]
      by_cases hcashier : cashier = claimer
      · subst hcashier
        have hadds := completions_addCompleted (k := k) (ticket.confirm_status env.now)
          (show (ticket.confirm env.now).claimedBy = some cashier from hclaimer) env.now
          (statsAt before cashier)
        rw [Ticket.confirm_amount] at hadds
        rwa [Function.update_self, hadds]
      · have hother : completion cashier k (some (ticket.confirm env.now)) = 0 := by
          simp [completion, completedBy, hclaimer, Ne.symm hcashier]
        rw [hother, add_zero] at hmoved
        rwa [Function.update_of_ne hcashier]
  | @cancelled k ticket actor reason hcall hticket hstatus htickets hstats =>
      have hold : ticket.status ≠ .confirmed := fun hconfirmed => hstatus (.inl hconfirmed)
      refine hlive _ _ (by simp) (by simp [hticket, hold]) htickets ?_
      cases hclaimer : ticket.claimedBy with
      | none =>
          rw [hclaimer] at hstats
          rw [hstats]
      | some claimer =>
          rw [hclaimer] at hstats
          dsimp only at hstats
          rw [hstats]
          split
          next => exact apply_update_eq (completions_addCancelledWithdraw env.now _) cashier
          next => rfl

theorem completionsCounted_start (h : NoTickets rows) : CompletionsCounted rows := by
  refine ⟨fun k ticket hticket => ?_, fun cashier => ?_⟩
  · rw [h.ticketAt_eq] at hticket
    cases hticket
  · rw [h.statsAt_eq]
    exact sumsTo_zero h.ticketAt_eq fun _ => rfl

theorem card_completed (ids : Finset (TicketType × String)) (kind : TicketType)
    (completed : TicketType × String → Bool) :
    (({k ∈ ids | k.1 = kind ∧ completed k}.card : Nat) : Int) =
      ∑ k ∈ ids, if completed k then if k.1 = kind then 1 else 0 else 0 := by
  rw [Finset.natCast_card_filter]
  refine Finset.sum_congr rfl fun k _ => ?_
  by_cases hcompleted : completed k
  · simp [hcompleted]
  · simp [hcompleted]

/-- Whatever the interleaving of calls on tickets, retried, released and claimed
again, each cashier's counters of completed tickets are what a recomputation from
the tickets gives. -/
theorem completions_recomputed (hdb : Migrated keys rows) (hstart : NoTickets rows)
    (moves : List (Move τ (Env × TicketCall))) :
    let world : TicketWorld τ := run (Concurrent.step ticketBody) (.quiet keys rows) moves
    let tickets := ticketAt world.committed
    Covers (ticketKeys world.keys) tickets ∧
    ∀ cashier,
      (statsAt world.committed cashier).depositsCompleted =
        {k ∈ ticketKeys world.keys | k.1 = .deposit ∧ completedBy cashier (tickets k)}.card ∧
      (statsAt world.committed cashier).withdrawsCompleted =
        {k ∈ ticketKeys world.keys | k.1 = .withdraw ∧ completedBy cashier (tickets k)}.card ∧
      (statsAt world.committed cashier).totalVolumeG =
        ∑ k ∈ ticketKeys world.keys with completedBy cashier (tickets k), amountAt (tickets k) := by
  intro world tickets
  have hworld : world.Sound ledgerSchema rows ticketBody :=
    Concurrent.sound_run ticketBody_describes hdb.toConsistent moves
  have hcovers : Covers (ticketKeys world.keys) tickets := covers_ticketKeys hworld.committed_keys
  have hcounted : CompletionsCounted world.committed :=
    Concurrent.committed_run ticketBody_describes
      (fun _ _ _ _ _ hwrites h => h.step hwrites) hdb.toConsistent (completionsCounted_start hstart)
      moves
  refine ⟨hcovers, fun cashier => ?_⟩
  have hsum := hcounted.sums cashier _ hcovers
  simp only [completions, completion, Prod.ext_iff, Prod.fst_sum, Prod.snd_sum, apply_ite Prod.fst,
    apply_ite Prod.snd, Prod.fst_zero, Prod.snd_zero] at hsum
  refine ⟨hsum.1.trans ?_, hsum.2.1.trans ?_, hsum.2.2.trans ?_⟩
  · exact (card_completed _ .deposit fun k => completedBy cashier (tickets k)).symm
  · exact (card_completed _ .withdraw fun k => completedBy cashier (tickets k)).symm
  · rw [Finset.sum_filter]

/-- A registered user with gold, and a cashier of the region. -/
def ticketEntries : List ((r : LedgerKey) × r.Row) :=
  [⟨.auditLog, []⟩, ⟨.user 0, {}⟩, ⟨.balance 0, .zero⟩, ⟨.user 9, {}⟩,
   ⟨.balance 9, startBalance⟩,
   ⟨.cashierCharacter ⟨7, "Bank", "Realm", .EU⟩,
    { id := 1, faction := .Horde, isActive := true, addedAt := 0 }⟩]

theorem ticketEntries_migrated : Migrated (ticketEntries.map Sigma.fst) (rowsOf ticketEntries) :=
  migrated_rowsOf ticketEntries (Option.some_ne_none _) (by simp [ticketEntries])

theorem ticketEntries_noTickets : NoTickets (rowsOf ticketEntries) where
  deposits := by simp [rowsOf, ticketEntries]
  withdraws := by simp [rowsOf, ticketEntries]
  stats := by simp [rowsOf, ticketEntries]

abbrev ticketStart : TicketWorld Nat :=
  .quiet (ticketEntries.map Sigma.fst) (rowsOf ticketEntries)

abbrev ticketRun (moves : List (Move Nat (Env × TicketCall))) : TicketWorld Nat :=
  run (Concurrent.step ticketBody) ticketStart moves

/-- The calls one after the other. -/
def inTurn (calls : List TicketCall) : List (Move Nat (Env × TicketCall)) :=
  calls.flatMap fun call => .start 0 (.plain, call) :: List.replicate 30 (.next 0) ++ [.commit 0]

def ticketConfig : TicketConfig := ⟨some 1, some 100000, some 3600, some 200⟩

/-- The ticket that user 9 asks for. -/
def ticketParams (amount threadId : Int) : TicketParams :=
  ⟨some 9, some "Char", some "Realm", some "EU", some "Horde", some amount, some threadId, some 2⟩

/-- A deposit and a withdraw, both claimed by cashier 7. -/
def claimedCalls : List TicketCall :=
  [.createDepositTicket ⟨1, 2⟩ ticketConfig (ticketParams 5000 1),
   .createWithdrawTicket ⟨1, 2⟩ ticketConfig (ticketParams 3000 3),
   .claimTicket (some "deposit") (some "deposit-1") (some 7),
   .releaseTicket (some "deposit") (some "deposit-1") (some 7),
   .claimTicket (some "deposit") (some "deposit-1") (some 7),
   .claimTicket (some "withdraw") (some "withdraw-1") (some 7)]

/-- Both are confirmed at once, the deposit twice. -/
def confirmingMoves : List (Move Nat (Env × TicketCall)) :=
  [inTurn claimedCalls,
   [.start 0 (.plain, .confirmDeposit (some "deposit-1") (some 7)),
    .start 1 (.plain, .confirmWithdraw (some "withdraw-1") (some 7))],
   (List.replicate 30 [.next 1, .next 0]).flatten, [.commit 1], List.replicate 30 (.next 0),
   [.commit 0], inTurn [.confirmDeposit (some "deposit-1") (some 7)]].flatten

theorem completions_recomputed_confirming :
    {k ∈ ticketKeys (ticketRun confirmingMoves).keys |
      k.1 = .deposit ∧ completedBy 7 (ticketAt (ticketRun confirmingMoves).committed k)}.card = 1 ∧
    ∑ k ∈ ticketKeys (ticketRun confirmingMoves).keys with
      completedBy 7 (ticketAt (ticketRun confirmingMoves).committed k),
      amountAt (ticketAt (ticketRun confirmingMoves).committed k) = 8000 := by
  obtain ⟨hdeposits, -, hvolume⟩ :=
    (completions_recomputed ticketEntries_migrated ticketEntries_noTickets confirmingMoves).2 7
  have hstats : (statsAt (ticketRun confirmingMoves).committed 7).depositsCompleted = 1 ∧
      (statsAt (ticketRun confirmingMoves).committed 7).totalVolumeG = 8000 := by decide +kernel
  exact ⟨by exact_mod_cast hdeposits.symm.trans hstats.1, hvolume.symm.trans hstats.2⟩

/-! ## Cancelled tickets -/

/-- The ticket of a kind that a call cancels, for another than its owner, while the
cashier has it claimed. -/
def cancelledFor (kind : TicketType) (cashier : Int)
    (taken : (Env × TicketCall) × LedgerRows) : Option String :=
  taken.1.2.cancels.bind fun (k, actor) =>
    if k.1 = kind ∧ (ticketAt taken.2 k).any fun ticket =>
        ticket.status = .claimed ∧ ticket.claimedBy = some cashier ∧ actor ≠ some ticket.discordId
    then some k.2
    else none

/-- The tickets of a kind that others than their owners have cancelled under the cashier. -/
def cancelledTickets (kind : TicketType) (cashier : Int)
    (past : List ((Env × TicketCall) × LedgerRows)) : List String :=
  past.filterMap (cancelledFor kind cashier)

/-- The counter of cancelled tickets of a kind. -/
def cancelledCount (kind : TicketType) (stats : CashierStatsRow) : Int :=
  match kind with
  | .deposit => stats.depositsCancelled
  | .withdraw => stats.withdrawsCancelled

theorem cancelledCount_addCompleted (kind completed : TicketType) (amount : Int) (now : Timestamp)
    (stats : CashierStatsRow) :
    cancelledCount kind (addCompleted completed amount now stats) = cancelledCount kind stats := by
  cases kind <;> cases completed <;> rfl

theorem cancelledCount_addCancelledWithdraw (now : Timestamp) (stats : CashierStatsRow) :
    cancelledCount .deposit (addCancelledWithdraw now stats) = cancelledCount .deposit stats := rfl

/-- A claimed deposit is cancelled by another than its owner. -/
def ForeignCancel (taken : (Env × TicketCall) × LedgerRows) : Prop :=
  ∃ uid actor reason ticket, taken.1.2 = .cancelDeposit (some uid) actor reason ∧
    taken.2 (.deposit uid) = some ticket ∧ ticket.status = .claimed ∧
    actor ≠ some ticket.discordId

variable {past : List ((Env × TicketCall) × LedgerRows)} {kind : TicketType} {cashier : Int}

theorem cancelledTickets_append (taken : (Env × TicketCall) × LedgerRows) :
    cancelledTickets kind cashier (past ++ [taken]) =
      cancelledTickets kind cashier past ++ (cancelledFor kind cashier taken).toList := by
  rw [cancelledTickets, List.filterMap_append, cancelledTickets]
  cases htaken : cancelledFor kind cashier taken <;> simp [htaken]

theorem cancelledFor_of_cancels {k : TicketType × String} {actor : Int} {ticket : Ticket}
    (hcall : call.cancels = some (k, some actor)) (hticket : ticketAt before k = some ticket)
    (hcons : ticket.Consistent) (hstatus : ¬ ticket.status.Terminal) :
    cancelledFor kind cashier ((env, call), before) =
      if k.1 = kind ∧ ticket.claimedBy = some cashier ∧ actor ≠ ticket.discordId then some k.2
      else none := by
  have hclaimed : ticket.claimedBy = some cashier → ticket.status = .claimed := by
    intro hclaimer
    rcases hcons.status with hopen | hclaimed | hdone | hdone
    · rw [(hcons.unclaimed hopen).1] at hclaimer
      cases hclaimer
    · exact hclaimed
    · exact absurd (.inl hdone) hstatus
    · exact absurd (.inr (.inl hdone)) hstatus
  simp only [cancelledFor, hcall, Option.bind_some, hticket, Option.any_some, decide_eq_true_eq,
    ne_eq, Option.some.injEq]
  refine if_congr (and_congr_right fun _ => ?_) rfl rfl
  exact ⟨fun h => h.2, fun h => ⟨hclaimed h.1, h⟩⟩

/-- A cancelled ticket stays. -/
theorem TicketWrites.cancelled_stays (h : TicketWrites env call before after)
    {k : TicketType × String} {ticket : Ticket} (hticket : ticketAt before k = some ticket)
    (hstatus : ticket.status = .cancelled) : ticketAt after k = some ticket := by
  have hupdate : ∀ {other : TicketType × String} {old new : Ticket},
      ticketAt before other = some old → old.status ≠ .cancelled →
      ticketAt after = Function.update (ticketAt before) other (some new) →
      ticketAt after k = some ticket := by
    intro other old new hold hlive htickets
    have hne : k ≠ other := by
      rintro rfl
      rw [hold, Option.some.injEq] at hticket
      exact hlive (hticket ▸ hstatus)
    rw [htickets, Function.update_of_ne hne, hticket]
  cases h with
  | same hcall htickets hstats => rw [htickets, hticket]
  | opened hcall hnew hfresh htickets hstats =>
      rw [htickets, Function.update_of_ne, hticket]
      rintro rfl
      rw [hnew] at hticket
      cases hticket
  | claimed hcall hold hopen htickets hstats => exact hupdate hold (by simp [hopen]) htickets
  | released hcall hold hclaimed htickets hstats => exact hupdate hold (by simp [hclaimed]) htickets
  | confirmed hcall hold hclaimed hcashier htickets hstats =>
      exact hupdate hold (by simp [hclaimed]) htickets
  | cancelled hcall hold hlive htickets hstats =>
      exact hupdate hold (fun hcancelled => hlive (.inr (.inl hcancelled))) htickets

/-- Every call that counts in the past has cancelled another ticket, the withdraws
are counted, and the deposits are not. -/
structure CancellationsCounted (past : List ((Env × TicketCall) × LedgerRows))
    (rows : LedgerRows) : Prop where
  consistent : TicketsConsistent rows
  past_consistent : ∀ taken ∈ past, TicketsConsistent taken.2
  cancelled : ∀ kind cashier, ∀ uid ∈ cancelledTickets kind cashier past,
    ∃ ticket, ticketAt rows (kind, uid) = some ticket ∧ ticket.status = .cancelled
  nodup : ∀ kind cashier, (cancelledTickets kind cashier past).Nodup
  withdraws : ∀ cashier, (statsAt rows cashier).withdrawsCancelled =
    (cancelledTickets .withdraw cashier past).length
  deposits : ∀ cashier, (statsAt rows cashier).depositsCancelled = 0

namespace CancellationsCounted

theorem past_concat (h : CancellationsCounted past before) :
    ∀ taken ∈ past ++ [((env, call), before)], TicketsConsistent taken.2 := by
  intro taken htaken
  rcases List.mem_append.mp htaken with htaken | htaken
  · exact h.past_consistent taken htaken
  · rw [List.mem_singleton.mp htaken]
    exact h.consistent

theorem stays (h : CancellationsCounted past before) (hwrites : TicketWrites env call before after)
    (kind : TicketType) (cashier : Int) :
    ∀ uid ∈ cancelledTickets kind cashier past,
      ∃ ticket, ticketAt after (kind, uid) = some ticket ∧ ticket.status = .cancelled := by
  intro uid huid
  obtain ⟨ticket, hticket, hstatus⟩ := h.cancelled kind cashier uid huid
  exact ⟨ticket, hwrites.cancelled_stays hticket hstatus, hstatus⟩

/-- A call that cancels nothing and leaves both counters alone. -/
theorem keep (h : CancellationsCounted past before) (hwrites : TicketWrites env call before after)
    (hcall : call.cancels = none)
    (hstats : ∀ kind cashier, cancelledCount kind (statsAt after cashier) =
      cancelledCount kind (statsAt before cashier)) :
    CancellationsCounted (past ++ [((env, call), before)]) after := by
  have hsame : ∀ kind cashier, cancelledTickets kind cashier (past ++ [((env, call), before)]) =
      cancelledTickets kind cashier past := by
    intro kind cashier
    simp [cancelledTickets_append, cancelledFor, hcall]
  refine ⟨hwrites.consistent h.consistent, h.past_concat, ?_, ?_, ?_, ?_⟩
  · intro kind cashier
    rw [hsame]
    exact h.stays hwrites kind cashier
  · intro kind cashier
    rw [hsame]
    exact h.nodup kind cashier
  · intro cashier
    rw [hsame]
    exact (hstats .withdraw cashier).trans (h.withdraws cashier)
  · intro cashier
    exact (hstats .deposit cashier).trans (h.deposits cashier)

/-- A call that cancels a ticket. -/
theorem cancel (h : CancellationsCounted past before)
    {k : TicketType × String} {ticket : Ticket} {actor : Int} {reason : Option String}
    (hcall : call.cancels = some (k, some actor)) (hticket : ticketAt before k = some ticket)
    (hstatus : ¬ ticket.status.Terminal)
    (htickets : ticketAt after =
      Function.update (ticketAt before) k (some (ticket.cancel env.now reason)))
    (hstats : statsAt after =
      match ticket.claimedBy with
      | none => statsAt before
      | some cashier =>
          if k.1 = .withdraw ∧ actor ≠ ticket.discordId then
            Function.update (statsAt before) cashier
              (addCancelledWithdraw env.now (statsAt before cashier))
          else statsAt before)
    (hpayouts : payoutAt after = payoutAt before) :
    CancellationsCounted (past ++ [((env, call), before)]) after := by
  have hwrites : TicketWrites env call before after :=
    .cancelled hcall hticket hstatus htickets hstats hpayouts
  have hnew : ∀ kind cashier,
      cancelledTickets kind cashier (past ++ [((env, call), before)]) =
        cancelledTickets kind cashier past ++
          if k.1 = kind ∧ ticket.claimedBy = some cashier ∧ actor ≠ ticket.discordId then [k.2]
          else [] := by
    intro kind cashier
    rw [cancelledTickets_append,
      cancelledFor_of_cancels hcall hticket (h.consistent k ticket hticket) hstatus]
    split <;> rfl
  -- a cancelled ticket is final, so the one that is cancelled now is none of the past
  have hfresh : ∀ cashier, k.2 ∉ cancelledTickets k.1 cashier past := by
    intro cashier hmem
    obtain ⟨live, hlive, hcancelled⟩ := h.cancelled k.1 cashier k.2 hmem
    obtain rfl := Option.some.inj (hlive.symm.trans hticket)
    exact hstatus (.inr (.inl hcancelled))
  refine ⟨hwrites.consistent h.consistent, h.past_concat, ?_, ?_, ?_, ?_⟩
  · intro kind cashier uid huid
    rw [hnew, List.mem_append] at huid
    rcases huid with huid | huid
    · exact h.stays hwrites kind cashier uid huid
    · split at huid
      next hcond =>
        obtain ⟨rfl, -⟩ := hcond
        rw [List.mem_singleton.mp huid]
        exact ⟨_, by rw [htickets, Function.update_self], rfl⟩
      next => cases huid
  · intro kind cashier
    rw [hnew]
    split
    next hcond =>
      obtain ⟨rfl, -⟩ := hcond
      exact (h.nodup k.1 cashier).append (List.nodup_singleton _)
        (List.disjoint_singleton.mpr (hfresh cashier))
    next => simpa using h.nodup kind cashier
  · -- the counter moves for the claimer, of a withdraw, when another than the owner cancels
    intro cashier
    rw [hnew, List.length_append, Nat.cast_add, ← h.withdraws cashier, hstats]
    cases hclaimer : ticket.claimedBy with
    | none => simp
    | some claimer =>
        by_cases hcond : k.1 = .withdraw ∧ actor ≠ ticket.discordId
        · by_cases hcashier : cashier = claimer
          · subst hcashier
            simp [hcond, addCancelledWithdraw]
          · simp [hcond, hcashier, Ne.symm hcashier]
        · have hnot : ¬ (k.1 = .withdraw ∧ claimer = cashier ∧ actor ≠ ticket.discordId) :=
            fun h => hcond ⟨h.1, h.2.2⟩
          simp [hcond, hnot]
  · intro cashier
    rw [hstats, ← h.deposits cashier]
    cases ticket.claimedBy with
    | none => rfl
    | some claimer =>
        dsimp only
        split
        next => exact apply_update_eq (cancelledCount_addCancelledWithdraw env.now _) cashier
        next => rfl

theorem step (h : CancellationsCounted past before)
    (hwrites : TicketWrites env call before after) :
    CancellationsCounted (past ++ [((env, call), before)]) after := by
  have hkeep := h.keep hwrites
  cases hwrites with
  | same hcall htickets hstats => exact hkeep hcall fun _ _ => by rw [hstats]
  | opened hcall hnew hfresh htickets hstats => exact hkeep hcall fun _ _ => by rw [hstats]
  | claimed hcall hticket hstatus htickets hstats => exact hkeep hcall fun _ _ => by rw [hstats]
  | released hcall hticket hstatus htickets hstats => exact hkeep hcall fun _ _ => by rw [hstats]
  | confirmed hcall hticket hstatus hclaimed htickets hstats =>
      refine hkeep hcall fun kind cashier => ?_
      rw [hstats]
      exact apply_update_eq (cancelledCount_addCompleted ..) cashier
  | cancelled hcall hticket hstatus htickets hstats hpayouts =>
      exact h.cancel hcall hticket hstatus htickets hstats hpayouts

end CancellationsCounted

theorem cancellationsCounted_start (h : NoTickets rows) : CancellationsCounted [] rows := by
  refine ⟨fun k ticket hticket => ?_, by simp, by simp [cancelledTickets],
    fun _ _ => List.nodup_nil, fun cashier => ?_, fun cashier => ?_⟩
  · rw [h.ticketAt_eq] at hticket
    cases hticket
  · rw [h.statsAt_eq]
    rfl
  · rw [h.statsAt_eq]

theorem cancelDeposit_of_cancels {uid : String} {actor : Option Int}
    (hcall : call.cancels = some ((.deposit, uid), actor)) :
    ∃ reason, call = .cancelDeposit (some uid) actor reason := by
  unfold TicketCall.cancels at hcall
  split at hcall
  next uid' actor' reason =>
    cases hcall
    exact ⟨reason, rfl⟩
  next => cases hcall
  next => cases hcall

/-- A foreign cancel counts against the cashier who has the deposit claimed. -/
theorem foreignCancel_iff {taken : (Env × TicketCall) × LedgerRows}
    (hcons : TicketsConsistent taken.2) :
    ForeignCancel taken ↔ ∃ cashier uid, cancelledFor .deposit cashier taken = some uid := by
  constructor
  · rintro ⟨uid, actor, reason, ticket, hcall, hticket, hclaimed, hactor⟩
    obtain ⟨cashier, hcashier⟩ := Option.ne_none_iff_exists'.mp
      ((hcons (.deposit, uid) ticket hticket).claimed (.inl hclaimed)).1
    refine ⟨cashier, uid, ?_⟩
    have hat : ticketAt taken.2 (.deposit, uid) = some ticket := hticket
    simp [cancelledFor, hcall, TicketCall.cancels, hat, hclaimed, hcashier, hactor]
  · rintro ⟨cashier, uid, hcancelled⟩
    obtain ⟨⟨⟨kind, other⟩, actor⟩, hcall, hcancelled⟩ := Option.bind_eq_some_iff.mp hcancelled
    dsimp only at hcancelled
    split at hcancelled
    next hcond =>
      obtain ⟨rfl, hany⟩ := hcond
      cases hticket : ticketAt taken.2 (.deposit, other) with
      | none =>
          rw [hticket] at hany
          cases hany
      | some ticket =>
          rw [hticket, Option.any_some, decide_eq_true_eq] at hany
          obtain ⟨reason, hcancels⟩ := cancelDeposit_of_cancels hcall
          exact ⟨other, actor, reason, ticket, hcancels, hticket, hany.1, hany.2.2⟩
    next => cases hcancelled

/-- Whatever the interleaving, each cashier's counter of cancelled withdraws is the
number of withdraws that others than their owners have cancelled under the cashier.
The counter of cancelled deposits is right as long as there is no such deposit. -/
theorem cancellations_recomputed_iff (hdb : Migrated keys rows) (hstart : NoTickets rows)
    (moves : List (Move τ (Env × TicketCall))) :
    let world : TicketWorld τ := run (Concurrent.step ticketBody) (.quiet keys rows) moves
    let past := Concurrent.history ticketBody (.quiet keys rows : TicketWorld τ) moves
    (∀ cashier, cancelledCount .withdraw (statsAt world.committed cashier) =
      (cancelledTickets .withdraw cashier past).toFinset.card) ∧
    ((∀ kind cashier, cancelledCount kind (statsAt world.committed cashier) =
      (cancelledTickets kind cashier past).toFinset.card) ↔
        ∀ taken ∈ past, ¬ ForeignCancel taken) := by
  intro world past
  have hcounted : CancellationsCounted past world.committed :=
    Concurrent.committed_history ticketBody_describes
      (fun _ _ _ _ _ hwrites h => h.step hwrites) hdb.toConsistent
      (cancellationsCounted_start hstart) moves
  have hcard : ∀ kind cashier, (cancelledTickets kind cashier past).toFinset.card =
      (cancelledTickets kind cashier past).length :=
    fun kind cashier => List.toFinset_card_of_nodup (hcounted.nodup kind cashier)
  have hwithdraws : ∀ cashier, cancelledCount .withdraw (statsAt world.committed cashier) =
      (cancelledTickets .withdraw cashier past).toFinset.card := by
    intro cashier
    rw [hcard]
    exact hcounted.withdraws cashier
  have hdeposits : ∀ cashier, cancelledCount .deposit (statsAt world.committed cashier) = 0 :=
    hcounted.deposits
  refine ⟨hwithdraws, ?_, ?_⟩
  · intro hright taken htaken hforeign
    obtain ⟨cashier, uid, hcancelled⟩ :=
      (foreignCancel_iff (hcounted.past_consistent taken htaken)).mp hforeign
    have hmem : uid ∈ cancelledTickets .deposit cashier past :=
      List.mem_filterMap.mpr ⟨taken, htaken, hcancelled⟩
    have hzero := hright .deposit cashier
    rw [hdeposits, hcard, eq_comm, Nat.cast_eq_zero, List.length_eq_zero_iff] at hzero
    rw [hzero] at hmem
    cases hmem
  · intro hnone kind cashier
    cases kind with
    | withdraw => exact hwithdraws cashier
    | deposit =>
        have hempty : cancelledTickets .deposit cashier past = [] := by
          refine List.filterMap_eq_nil_iff.mpr fun taken htaken => ?_
          by_contra hsome
          obtain ⟨uid, hcancelled⟩ := Option.ne_none_iff_exists'.mp hsome
          exact hnone taken htaken
            ((foreignCancel_iff (hcounted.past_consistent taken htaken)).mpr
              ⟨cashier, uid, hcancelled⟩)
        rw [hdeposits, hempty]
        rfl

/-- The cashier cancels the claimed withdraw, its owner the claimed deposit. -/
def cancellingMoves : List (Move Nat (Env × TicketCall)) :=
  inTurn (claimedCalls ++ [.cancelWithdraw (some "withdraw-1") (some 7) none,
    .cancelDeposit (some "deposit-1") (some 9) none])

theorem cancellations_recomputed_iff_cancelling :
    (cancelledTickets .withdraw 7
      (Concurrent.history ticketBody ticketStart cancellingMoves)).toFinset.card = 1 := by
  have hcount := (cancellations_recomputed_iff ticketEntries_migrated ticketEntries_noTickets
    cancellingMoves).1 7
  have hstats :
      cancelledCount .withdraw (statsAt (ticketRun cancellingMoves).committed 7) = 1 := by
    decide +kernel
  exact_mod_cast hcount.symm.trans hstats

/-- The cashier cancels the deposit, and no counter moves. -/
theorem deposit_cancellation_uncounted :
    let moves := inTurn (claimedCalls ++ [.cancelDeposit (some "deposit-1") (some 7) none])
    (cancelledTickets .deposit 7
        (Concurrent.history ticketBody ticketStart moves)).toFinset.card = 1 ∧
      cancelledCount .deposit (statsAt (ticketRun moves).committed 7) = 0 := by
  decide +kernel

end DeathRoll.Interleaved
