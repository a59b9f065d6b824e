import DeathRoll.Workers.Expiry
import DeathRoll.Workers.Pass

/-! # Timing out tickets

`workers/ticket_timeout.py`. A tick lists the expired deposits and cancels them one
transaction at a time, then the expired withdraws. Others may confirm, cancel or release
tickets in between, and the tick may be cut off anywhere; another tick then finishes what
is left. The audit post that may follow a cancellation writes nothing to the database.
-/

namespace DeathRoll

open Relational

namespace TicketTimeout

/-- `_REASON_CLAIMED` or `_REASON_OPEN`, by the status in which the ticket was listed. -/
def reason (status : TicketStatus) : String :=
  if status = .claimed then "auto-cancel: expired (claimed ticket left stale)"
  else "auto-cancel: expired (open ticket)"

/-- When a tick reads and when it cancels, and what others commit before each of its
transactions and between its two passes. -/
structure Schedule where
  env : Env
  selectedAt : TicketType → Timestamp
  cancelledAt : TicketType → String → Timestamp
  others : TicketType → String → List Command
  between : List Command

namespace Schedule

/-- `_cancel_one`, for a row that was listed; 0 is `_SYSTEM_ACTOR_ID`. -/
def attempt (t : Schedule) (kind : TicketType) (row : String × TicketStatus) : Attempt Command :=
  ⟨t.others kind row.1,
    .call (t.env.at (t.cancelledAt kind row.1)) (kind.cancelCall row.1 0 (reason row.2))⟩

def attempts (t : Schedule) (kind : TicketType) (s : Database) : List (Attempt Command) :=
  (s.expiredTickets kind (t.selectedAt kind)).map (t.attempt kind)

/-- Nobody else is at work. -/
structure Quiet (t : Schedule) : Prop where
  others : ∀ kind uid, t.others kind uid = []
  between : t.between = []

/-- Others confirm, cancel or release tickets. -/
structure Races (t : Schedule) : Prop where
  others : ∀ kind uid, ∀ command ∈ t.others kind uid, command.Settles
  between : ∀ command ∈ t.between, command.Settles

end Schedule

/-- One pass of the worker; the count that it returns is the length of `acted`. -/
def tick (t : Schedule) (s : Database) : Progress Database Command DbError :=
  (pass s (t.attempts .deposit s)).andThen fun s' =>
    let s'' := run step s' t.between
    pass s'' (t.attempts .withdraw s'')

/-- A tick that is cut off after `count` of its transactions. -/
def tickUpTo (count : ℕ) (t : Schedule) (s : Database) : Progress Database Command DbError :=
  (pass s ((t.attempts .deposit s).take count)).andThen fun s' =>
    let s'' := run step s' t.between
    pass s'' ((t.attempts .withdraw s'').take (count - (t.attempts .deposit s).length))

/-- The database after some ticks that were cut off. -/
def afterCrashes (s : Database) (crashes : List (ℕ × Schedule)) : Database :=
  run (fun s crash => (tickUpTo crash.1 crash.2 s).state) s crashes

end TicketTimeout

variable {s s' a b : Database} {kind : TicketType}

namespace TicketTimeout

variable {t : Schedule} {count : ℕ} {trial : Database × Command}

/-! ## What every tick keeps -/

theorem attempt_settles (t : Schedule) (kind : TicketType) (row : String × TicketStatus) :
    (t.attempt kind row).command.Settles := by
  cases kind <;> trivial

theorem tick_eq_tickUpTo (t : Schedule) (s : Database) :
    ∃ count, tick t s = tickUpTo count t s := by
  let s' := run step (pass s (t.attempts .deposit s)).state t.between
  refine ⟨(t.attempts .deposit s).length + (t.attempts .withdraw s').length, ?_⟩
  simp only [tick, tickUpTo, List.take_of_length_le (Nat.le_add_right _ _), Progress.andThen,
    Nat.add_sub_cancel_left]
  split
  next => rfl
  next => rw [List.take_of_length_le le_rfl]

/-- What others keep, and cancellations of listed tickets keep, a tick keeps wherever it
is cut off. -/
theorem tickUpTo_invariant (inv : Database → Prop)
    (hothers : ∀ kind uid, ∀ command ∈ t.others kind uid, ∀ s, inv s → inv (step s command))
    (hbetween : ∀ command ∈ t.between, ∀ s, inv s → inv (step s command))
    (hown : ∀ kind selected, inv selected →
      ∀ row ∈ selected.expiredTickets kind (t.selectedAt kind), ∀ s, inv s →
        inv (step s (t.attempt kind row).command)) (hs : inv s) :
    inv (tickUpTo count t s).state := by
  have hpass : ∀ kind selected, inv selected → ∀ attempts ⊆ t.attempts kind selected,
      inv (pass selected attempts).state := by
    intro kind selected hselected attempts hsub
    refine work_invariant inv (fun next hnext command hcommand s' hs' => ?_) hselected
    obtain ⟨row, hrow, rfl⟩ := List.mem_map.mp (hsub hnext)
    rw [after_exec]
    rcases List.mem_append.mp hcommand with hother | hmine
    · exact hothers kind row.1 command hother s' hs'
    · obtain rfl := List.mem_singleton.mp hmine
      exact hown kind selected hselected row hrow s' hs'
  refine Progress.andThen_invariant (hpass .deposit s hs _ (List.take_subset _ _)) fun s' hs' => ?_
  have hselected : inv (run step s' t.between) :=
    run_invariant (fun s command hmem h => hbetween command hmem s h) hs' fun _ hmem => hmem
  exact hpass .withdraw _ hselected _ (List.take_subset _ _)

/-- Where others only settle tickets, a tick settles. -/
theorem tickUpTo_settles (ht : t.Races) (hs : s.Solvent) :
    (tickUpTo count t s).state.Solvent ∧ s.Settled (tickUpTo count t s).state := by
  have hstep : ∀ command : Command, command.Settles → ∀ s', s'.Solvent ∧ s.Settled s' →
      (step s' command).Solvent ∧ s.Settled (step s' command) :=
    fun _ hcommand _ h =>
      ⟨h.1.settle hcommand, h.2.trans (settled_step h.1.wellFormed hcommand)⟩
  exact tickUpTo_invariant (fun s' => s'.Solvent ∧ s.Settled s')
    (fun kind uid command hmem => hstep command (ht.others kind uid command hmem))
    (fun command hmem => hstep command (ht.between command hmem))
    (fun kind _ _ row _ => hstep _ (attempt_settles t kind row)) ⟨hs, .refl s⟩

theorem tick_settles (ht : t.Races) (hs : s.Solvent) :
    (tick t s).state.Solvent ∧ s.Settled (tick t s).state := by
  obtain ⟨count, heq⟩ := tick_eq_tickUpTo t s
  rw [heq]
  exact tickUpTo_settles ht hs

theorem Schedule.Quiet.races (ht : t.Quiet) : t.Races :=
  ⟨fun kind uid => by simp [ht.others], by simp [ht.between]⟩

/-- A tick on its own times tickets out. -/
theorem tickUpTo_timesOut {dueAt : TicketType → Timestamp} (ht : t.Quiet)
    (hdue : ∀ kind, t.selectedAt kind ≤ dueAt kind) (hs' : s'.Solvent) (hsettled : s.Settled s')
    (htimes : s.TimesOut dueAt s') :
    (tickUpTo count t s').state.Solvent ∧ s.Settled (tickUpTo count t s').state ∧
      s.TimesOut dueAt (tickUpTo count t s').state := by
  refine tickUpTo_invariant
    (fun s'' => s''.Solvent ∧ s.Settled s'' ∧ s.TimesOut dueAt s'')
    (fun kind uid command hmem => ?_) (fun command hmem => ?_)
    (fun kind selected hselected row hrow s'' h => ?_) ⟨hs', hsettled, htimes⟩
  · rw [ht.others] at hmem
    cases hmem
  · rw [ht.between] at hmem
    cases hmem
  · obtain ⟨ticket, hticket, hexpired, -⟩ := mem_expiredTickets.mp hrow
    have hcancels : (t.attempt kind row).command.CancelsExpired dueAt s :=
      ⟨kind, row.1, _, _, _, ticket, rfl, hselected.2.2.expired hticket hexpired.pending,
        hexpired.1, lt_of_lt_of_le hexpired.2 (hdue kind)⟩
    exact ⟨h.1.settle hcancels.settles,
      h.2.1.trans (settled_step h.1.wellFormed hcancels.settles),
      h.2.2.step h.1.wellFormed hcancels⟩

theorem tick_timesOut (ht : t.Quiet) (hs' : s'.Solvent) (hsettled : s.Settled s')
    (htimes : s.TimesOut t.selectedAt s') :
    (tick t s').state.Solvent ∧ s.Settled (tick t s').state ∧
      s.TimesOut t.selectedAt (tick t s').state := by
  obtain ⟨count, heq⟩ := tick_eq_tickUpTo t s'
  rw [heq]
  exact tickUpTo_timesOut ht (fun _ => le_rfl) hs' hsettled htimes

/-- Ticks that were cut off, one after the other. -/
theorem afterCrashes_settles (hs : s.Solvent) {crashes : List (ℕ × Schedule)}
    (hcrashes : ∀ crash ∈ crashes, crash.2.Races) :
    (afterCrashes s crashes).Solvent ∧ s.Settled (afterCrashes s crashes) := by
  have hstep : ∀ s' (crash : ℕ × Schedule), crash.2.Races → s'.Solvent ∧ s.Settled s' →
      (tickUpTo crash.1 crash.2 s').state.Solvent ∧
        s.Settled (tickUpTo crash.1 crash.2 s').state := by
    intro s' crash hraces h
    obtain ⟨hsolvent, hsettled⟩ := tickUpTo_settles hraces h.1
    exact ⟨hsolvent, h.2.trans hsettled⟩
  exact run_invariant hstep ⟨hs, .refl s⟩ hcrashes

theorem afterCrashes_timesOut {dueAt : TicketType → Timestamp} (hs : s.Solvent)
    {crashes : List (ℕ × Schedule)}
    (hcrashes : ∀ crash ∈ crashes, crash.2.Quiet ∧ ∀ kind, crash.2.selectedAt kind ≤ dueAt kind) :
    (afterCrashes s crashes).Solvent ∧ s.Settled (afterCrashes s crashes) ∧
      s.TimesOut dueAt (afterCrashes s crashes) := by
  have hstep : ∀ s' (crash : ℕ × Schedule), (crash.2.Quiet ∧ ∀ kind, crash.2.selectedAt kind ≤ dueAt kind) →
      s'.Solvent ∧ s.Settled s' ∧ s.TimesOut dueAt s' →
      (tickUpTo crash.1 crash.2 s').state.Solvent ∧
        s.Settled (tickUpTo crash.1 crash.2 s').state ∧
        s.TimesOut dueAt (tickUpTo crash.1 crash.2 s').state :=
    fun s' crash hcrash h => tickUpTo_timesOut hcrash.1 hcrash.2 h.1 h.2.1 h.2.2
  exact run_invariant hstep ⟨hs, .refl s, .refl dueAt s⟩ hcrashes

theorem attempts_of_none (hnone : ∀ uid ticket, s.ticketOf kind uid = some ticket →
    ¬ ticket.Expired (t.selectedAt kind)) : t.attempts kind s = [] := by
  rw [Schedule.attempts, List.map_eq_nil_iff, List.eq_nil_iff_forall_not_mem]
  rintro ⟨uid, status⟩ hlisted
  obtain ⟨ticket, hticket, hexpired, -⟩ := mem_expiredTickets.mp hlisted
  exact hnone uid ticket hticket hexpired

/-- With nothing expired, a tick does nothing. -/
theorem tick_idle (ht : t.Races) (hs : s.Solvent)
    (hnone : ∀ kind uid ticket, s.ticketOf kind uid = some ticket →
      ¬ ticket.Expired (t.selectedAt kind)) :
    tick t s = ⟨run step s t.between, [], [], none⟩ := by
  obtain ⟨hsolvent, hsettled⟩ := settled_run hs ht.between
  have hnone' : ∀ uid ticket, (run step s t.between).ticketOf .withdraw uid = some ticket →
      ¬ ticket.Expired (t.selectedAt .withdraw) := by
    intro uid ticket hticket hexpired
    obtain ⟨old, hold, hchange⟩ := hsettled.origin hticket
    exact hnone .withdraw uid old hold
      (hexpired.of_settled hchange (hs.explained.tickets.shared .withdraw uid old hold))
  rw [tick, attempts_of_none (hnone .deposit)]
  simp only [pass, work_nil, Progress.andThen, attempts_of_none hnone', List.append_nil]

/-- Once nothing is left expired, a further tick has nothing to do. -/
theorem tick_further {t' : Schedule} (hs : s.Solvent) (hnone : ∀ kind uid ticket,
      s.ticketOf kind uid = some ticket → ¬ ticket.Expired (t.selectedAt kind)) (ht' : t'.Races)
    (hsince : ∀ kind uid ticket, s.ticketOf kind uid = some ticket →
      ticket.Expired (t'.selectedAt kind) → ticket.Expired (t.selectedAt kind)) :
    tick t' s = ⟨run step s t'.between, [], [], none⟩ :=
  tick_idle ht' hs fun kind uid ticket hticket hexpired =>
    hnone kind uid ticket hticket (hsince kind uid ticket hticket hexpired)

/-! ## A tick on its own -/

/-- With `rest` still to come, the other listed tickets of a kind have been cancelled. -/
structure Sweeping (s : Database) (t : Schedule) (kind : TicketType) (s' : Database)
    (rest : List (String × TicketStatus)) : Prop where
  solvent : s'.Solvent
  settled : s.Settled s'
  timesOut : s.TimesOut t.selectedAt s'
  nodup : (rest.map Prod.fst).Nodup
  due : ∀ uid, uid ∈ rest.map Prod.fst ↔
    ∃ ticket, s'.ticketOf kind uid = some ticket ∧ ticket.Expired (t.selectedAt kind)
  withdraws : kind = .deposit → s'.withdrawTickets = s.withdrawTickets

theorem Sweeping.next {row : String × TicketStatus} {rest : List (String × TicketStatus)}
    (hkey : ∃ key, t.env.chainKey = .ok key) (hfit : s.RefundsFit (t.selectedAt .withdraw))
    (h : Sweeping s t kind s' (row :: rest)) :
    (Command.exec s' (t.attempt kind row).command).1 = .ok () ∧
      Sweeping s t kind (step s' (t.attempt kind row).command) rest := by
  obtain ⟨hfresh, hnodup⟩ := List.nodup_cons.mp h.nodup
  obtain ⟨ticket, hticket, hexpired⟩ := (h.due row.1).mp List.mem_cons_self
  have hcan : s'.CanCancel (t.env.at (t.cancelledAt kind row.1)) kind ticket := by
    refine h.solvent.canCancel hticket hexpired.pending hkey fun w hkind hw hmine => ?_
    subst hkind hmine
    exact h.timesOut.fits h.settled hfit hw hexpired
  have hok := (cancelCall_succeeds_iff h.solvent.wellFormed hticket hexpired.pending 0
    (reason row.2)).mpr hcan
  refine ⟨hok, ?_⟩
  have hcancels : (t.attempt kind row).command.CancelsExpired t.selectedAt s :=
    ⟨kind, row.1, _, _, _, ticket, rfl, h.timesOut.expired hticket hexpired.pending, hexpired⟩
  obtain ⟨old, hold, -, hchanges, hwithdraws⟩ := cancelCall_changes h.solvent.wellFormed hok
  refine ⟨h.solvent.settle hcancels.settles,
    h.settled.trans (settled_step h.solvent.wellFormed hcancels.settles),
    h.timesOut.step h.solvent.wellFormed hcancels, hnodup, fun uid => ?_,
    fun hkind => (hwithdraws hkind).trans (h.withdraws hkind)⟩
  rw [Schedule.attempt, hchanges]
  by_cases hmine : uid = row.1
  · subst hmine
    simp [hfresh, not_expired_cancel]
  · rw [if_neg fun heq => hmine heq.2, ← h.due, List.map_cons, List.mem_cons]
    simp [hmine]

/-- The jobs to come are those for the tickets of some `rest`. -/
def Sweeps (s : Database) (t : Schedule) (kind : TicketType) (s' : Database)
    (attempts : List (Attempt Command)) : Prop :=
  ∃ rest, attempts = rest.map (t.attempt kind) ∧ Sweeping s t kind s' rest

theorem Sweeps.next {next : Attempt Command} {later : List (Attempt Command)} (ht : t.Quiet)
    (hkey : ∃ key, t.env.chainKey = .ok key) (hfit : s.RefundsFit (t.selectedAt .withdraw))
    (h : Sweeps s t kind s' (next :: later)) :
    (Command.exec (next.met Command.exec s') next.command).1 = .ok () ∧
      Sweeps s t kind (after Command.exec (next.met Command.exec s') next.command) later := by
  obtain ⟨_ | ⟨row, rest⟩, heq, hsweeping⟩ := h
  · cases heq
  obtain ⟨rfl, rfl⟩ := List.cons.inj heq
  have hmet : (t.attempt kind row).met Command.exec s' = s' := by
    rw [Attempt.met, Schedule.attempt, ht.others]
    rfl
  obtain ⟨hok, hnext⟩ := hsweeping.next hkey hfit
  rw [hmet, after_exec]
  exact ⟨hok, rest, rfl, hnext⟩

/-- A pass on its own cancels whatever it listed. -/
theorem pass_sweeps (ht : t.Quiet) (hkey : ∃ key, t.env.chainKey = .ok key)
    (hfit : s.RefundsFit (t.selectedAt .withdraw)) (hs : s.Solvent) (kind : TicketType) :
    (pass s (t.attempts kind s)).error = none ∧
      (pass s (t.attempts kind s)).acted.length =
        (s.expiredTickets kind (t.selectedAt kind)).length ∧
      Sweeping s t kind (pass s (t.attempts kind s)).state [] := by
  have hstart : Sweeps s t kind s (t.attempts kind s) :=
    ⟨_, rfl, hs, .refl s, .refl _ s, nodup_expiredTickets s kind _, fun _ => listed_iff,
      fun _ => rfl⟩
  have hdone : (pass s (t.attempts kind s)).error = none ∧
      (pass s (t.attempts kind s)).acted.map Prod.snd = _ ∧
      Sweeps s t kind (pass s (t.attempts kind s)).state [] :=
    work_succeeds (fun _ _ _ => Sweeps.next ht hkey hfit) hstart
  obtain ⟨herror, hacted, rest, hnil, hend⟩ := hdone
  rw [List.map_eq_nil_iff.mp hnil.symm] at hend
  refine ⟨herror, ?_, hend⟩
  simpa [Schedule.attempts] using congrArg List.length hacted

/-- What a tick is for, with nobody else at work: every expired ticket ends cancelled,
its owner's gold returned once, all else as before. -/
structure Completes (t : Schedule) (s : Database) (result : Progress Database Command DbError) :
    Prop where
  finished : result.error = none
  count : result.acted.length =
    (s.expiredTickets .deposit (t.selectedAt .deposit)).length +
      (s.expiredTickets .withdraw (t.selectedAt .withdraw)).length
  noneLeft : ∀ kind uid ticket, result.state.ticketOf kind uid = some ticket →
    ¬ ticket.Expired (t.selectedAt kind)
  cancelled : ∀ kind uid ticket, s.ticketOf kind uid = some ticket →
    ticket.Expired (t.selectedAt kind) →
    ∃ at_ reason, result.state.ticketOf kind uid = some (ticket.cancel at_ reason)
  kept : ∀ kind uid, (∀ ticket, s.ticketOf kind uid = some ticket →
    ¬ ticket.Expired (t.selectedAt kind)) → result.state.ticketOf kind uid = s.ticketOf kind uid
  refunded : ∀ user,
    result.state.balanceOf user = s.balanceOf user + s.owed (t.selectedAt .withdraw) user
  released : ∀ user,
    result.state.lockedOf user = s.lockedOf user - s.owed (t.selectedAt .withdraw) user
  further : ∀ t' : Schedule, t'.Races → (∀ kind uid ticket,
      result.state.ticketOf kind uid = some ticket →
      ticket.Expired (t'.selectedAt kind) → ticket.Expired (t.selectedAt kind)) →
    tick t' result.state = ⟨run step result.state t'.between, [], [], none⟩

theorem tick_completes (ht : t.Quiet) (hkey : ∃ key, t.env.chainKey = .ok key)
    (hfit : s.RefundsFit (t.selectedAt .withdraw)) (hs : s.Solvent) :
    Completes t s (tick t s) := by
  obtain ⟨herror, hcount, hswept⟩ := pass_sweeps ht hkey hfit hs .deposit
  have hfit' := hswept.timesOut.refundsFit hswept.settled hfit
  obtain ⟨herror', hcount', hswept'⟩ := pass_sweeps ht hkey hfit' hswept.solvent .withdraw
  have htick : tick t s = _ := Progress.andThen_of_finished herror
  rw [ht.between, run_nil] at htick
  have htimes := tick_timesOut ht hs (.refl s) (.refl _ s)
  have hnone : ∀ kind uid ticket, (tick t s).state.ticketOf kind uid = some ticket →
      ¬ ticket.Expired (t.selectedAt kind) := by
    intro kind uid ticket hticket hexpired
    rw [htick] at hticket
    cases kind with
    | deposit =>
        obtain ⟨old, hold, hsettled⟩ := hswept'.settled.origin hticket
        have hdue := hexpired.of_settled hsettled
          (hswept.solvent.explained.tickets.shared .deposit uid old hold)
        exact List.not_mem_nil ((hswept.due uid).mpr ⟨old, hold, hdue⟩)
    | withdraw => exact List.not_mem_nil ((hswept'.due uid).mpr ⟨ticket, hticket, hexpired⟩)
  have howed := owed_eq_zero (hnone .withdraw)
  refine ⟨by rw [htick]; exact herror', ?_, hnone, fun kind uid ticket hticket hexpired => ?_,
    fun kind uid hkept => ?_, fun user => ?_, fun user => ?_,
    fun t' => tick_further htimes.1 hnone⟩
  · have hlisted : ∀ now, (pass s (t.attempts .deposit s)).state.expiredTickets .withdraw now =
        s.expiredTickets .withdraw now := by
      intro now
      simp only [Database.expiredTickets, Database.ticketRows, hswept.withdraws]
    rw [htick, List.length_append, hcount, hcount', hlisted]
  · rcases htimes.2.2 kind uid with hsame | ⟨old, at_, reason, hold, -, hcancelled⟩
    · rw [hticket] at hsame
      exact absurd hexpired (hnone kind uid ticket hsame)
    · rw [hticket, Option.some.injEq] at hold
      exact ⟨at_, reason, hold ▸ hcancelled⟩
  · rcases htimes.2.2 kind uid with hsame | ⟨old, at_, reason, hold, hexpired, -⟩
    · exact hsame
    · exact absurd hexpired (hkept old hold)
  · have hpaid := htimes.2.1.paid user
    have hsum := htimes.2.2.paidOut htimes.2.1 user
    rw [howed] at hsum
    omega
  · have hsum := htimes.2.2.escrow htimes.2.1 user
    rw [howed, ← htimes.1.explained.locked, ← hs.explained.locked] at hsum
    omega

/-! ## Ticks after ticks -/

/-- All expired tickets have been timed out in both. -/
theorem sameStatuses_of_timesOut {dueAt : TicketType → Timestamp} (ha : s.TimesOut dueAt a)
    (hb : s.TimesOut dueAt b)
    (hnone : ∀ kind uid ticket, a.ticketOf kind uid = some ticket → ¬ ticket.Expired (dueAt kind))
    (hnone' : ∀ kind uid ticket, b.ticketOf kind uid = some ticket →
      ¬ ticket.Expired (dueAt kind)) : a.SameStatuses b := by
  intro kind uid
  rcases ha kind uid with hsame | ⟨ticket, at_, reason, hticket, hexpired, hcancelled⟩
  · rcases hb kind uid with hsame' | ⟨ticket, at_, reason, hticket, hexpired, -⟩
    · rw [hsame, hsame']
    · exact absurd hexpired (hnone kind uid ticket (hsame.trans hticket))
  · rcases hb kind uid with hsame' | ⟨ticket', at', reason', -, -, hcancelled'⟩
    · exact absurd hexpired (hnone' kind uid ticket (hsame'.trans hticket))
    · rw [hcancelled, hcancelled']
      rfl

/-- Whatever ticks were cut off before it, a tick ends as if there had been none. -/
theorem tick_resumes (hs : s.Solvent) {crashes : List (ℕ × Schedule)}
    (hcrashes : ∀ crash ∈ crashes, crash.2.Quiet ∧
      ∀ kind, crash.2.selectedAt kind ≤ t.selectedAt kind) (ht : t.Quiet)
    (hkey : ∃ key, t.env.chainKey = .ok key) (hfit : s.RefundsFit (t.selectedAt .withdraw)) :
    Completes t (afterCrashes s crashes) (tick t (afterCrashes s crashes)) ∧
      (tick t (afterCrashes s crashes)).state.SameOutcome (tick t s).state := by
  obtain ⟨hsolvent, hsettled, htimes⟩ := afterCrashes_timesOut hs hcrashes
  have hcompletes := tick_completes ht hkey (htimes.refundsFit hsettled hfit) hsolvent
  have honce := tick_completes ht hkey hfit hs
  obtain ⟨hsolvent', hsettled', htimes'⟩ := tick_timesOut ht hsolvent hsettled htimes
  obtain ⟨honceSolvent, honceSettled, honceTimes⟩ := tick_timesOut ht hs (.refl s) (.refl _ s)
  exact ⟨hcompletes, hsettled'.sameOutcome honceSettled hsolvent'.explained honceSolvent.explained
    (sameStatuses_of_timesOut htimes' honceTimes hcompletes.noneLeft honce.noneLeft)⟩

end TicketTimeout

end DeathRoll
