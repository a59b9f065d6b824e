import DeathRoll.Workers.TicketTimeout

/-! # Racing with the timeout worker

While a tick comes to one ticket after the other, others confirm, cancel or release
tickets. Whoever is first settles a ticket, and a tick that comes to a final ticket
passes over it. However the races end and wherever ticks are cut off, a tick that ends
leaves nothing expired, and the balances follow from who won.
-/

namespace DeathRoll

open Relational

namespace TicketTimeout

variable {s s' a b : Database} {kind : TicketType} {uid : String} {ticket : Ticket}
variable {now : Timestamp} {t : Schedule} {trial : Database × Command}

/-- How a transaction of a tick for one ticket ends: it cancels the ticket, or it finds
that the ticket is final and leaves it so. -/
def Concludes (kind : TicketType) (uid : String) (trial : Database × Command)
    (final : Database) : Prop :=
  ∃ ticket, trial.1.ticketOf kind uid = some ticket ∧
    (¬ ticket.status.Terminal ∧ (Command.exec trial.1 trial.2).1 = .ok () ∧
        trial.1.Cancels kind uid ticket (step trial.1 trial.2) ∧
        final.ticketOf kind uid = (step trial.1 trial.2).ticketOf kind uid ∨
      ticket.status.Terminal ∧
        (Command.exec trial.1 trial.2).1 = .error (.ticketAlreadyTerminal ticket.status) ∧
        final.ticketOf kind uid = some ticket)

/-- The refund of a transaction that meets a pending withdraw fits its owner's balance. -/
def RefundFits (trial : Database × Command) : Prop :=
  ∀ env uid actorId reason w,
    trial.2 = .call env (TicketType.withdraw.cancelCall uid actorId reason) →
    trial.1.withdrawTickets.get? uid = some w → ¬ w.status.Terminal →
    InBigint (trial.1.balanceOf w.discordId + w.amount)

theorem Concludes.later {final : Database} (hfinal : final.WellFormed)
    (h : Concludes kind uid trial final) (later : List Command) :
    Concludes kind uid trial (run step final later) := by
  obtain ⟨ticket, hticket, ⟨hpending, hok, hcancels, hsame⟩ | ⟨hterminal, herror, hkept⟩⟩ := h
  · refine ⟨ticket, hticket, .inl ⟨hpending, hok, hcancels, ?_⟩⟩
    obtain ⟨cancelled, hcancelled, hstatus⟩ := Option.map_eq_some_iff.mp hcancels.status
    rw [hcancelled] at hsame ⊢
    exact ticketOf_final kind hfinal (.inr (.inl hstatus)) hsame later
  · exact ⟨ticket, hticket,
      .inr ⟨hterminal, herror, ticketOf_final kind hfinal hterminal hkept later⟩⟩

/-- A ticket that a tick has come to is final. -/
theorem Concludes.not_expired {final : Database} (h : Concludes kind uid trial final)
    (hticket : final.ticketOf kind uid = some ticket) : ¬ ticket.Expired now := by
  intro hexpired
  obtain ⟨old, -, ⟨-, -, hcancels, hsame⟩ | ⟨hterminal, -, hkept⟩⟩ := h
  · have hstatus := hcancels.status
    rw [← hsame, hticket, Option.map_some, Option.some.injEq] at hstatus
    exact hexpired.pending (.inr (.inl hstatus))
  · rw [hkept, Option.some.injEq] at hticket
    exact hexpired.pending (hticket ▸ hterminal)

/-- A transaction of a tick concludes where it can write its audit row and the refund fits. -/
theorem attempt_concludes {row : String × TicketStatus} (hs : s.Solvent)
    (hticket : s.ticketOf kind row.1 = some ticket) (hkey : ∃ key, t.env.chainKey = .ok key)
    (hfits : RefundFits (s, (t.attempt kind row).command)) (later : List Command) :
    Concludes kind row.1 (s, (t.attempt kind row).command)
      (run step (step s (t.attempt kind row).command) later) := by
  have hnow : Concludes kind row.1 (s, (t.attempt kind row).command)
      (step s (t.attempt kind row).command) := by
    refine ⟨ticket, hticket, ?_⟩
    by_cases hpending : ticket.status.Terminal
    · right
      rcases hend : (Command.exec s (t.attempt kind row).command).1 with e | ⟨⟩
      · rw [cancelCall_final hticket hpending 0 (reason row.2) hend]
        have hkept := ticketOf_final kind hs.wellFormed hpending hticket
          [(t.attempt kind row).command]
        exact ⟨hpending, rfl, hkept⟩
      · obtain ⟨old, hold, hnot, -⟩ := cancelCall_changes hs.wellFormed hend
        rw [hticket, Option.some.injEq] at hold
        exact absurd (hold ▸ hpending) hnot
    · have hcan : s.CanCancel (t.env.at (t.cancelledAt kind row.1)) kind ticket := by
        refine hs.canCancel hticket hpending hkey fun w hkind hw hmine => ?_
        subst hkind hmine
        exact hfits _ row.1 0 _ w rfl hw hpending
      have hok := (cancelCall_succeeds_iff hs.wellFormed hticket hpending 0 (reason row.2)).mpr hcan
      exact .inl ⟨hpending, hok, cancelCall_cancels hs.wellFormed hticket hok, rfl⟩
  have hsettles := attempt_settles t kind row
  exact hnow.later (hs.settle hsettles).wellFormed later

theorem attempt_commands_settle (ht : t.Races) {selected : Database} {attempt : Attempt Command}
    (hattempt : attempt ∈ t.attempts kind selected) :
    ∀ command ∈ attempt.commands, command.Settles := by
  obtain ⟨row, -, rfl⟩ := List.mem_map.mp hattempt
  intro command hcommand
  rcases List.mem_append.mp hcommand with hother | hmine
  · exact ht.others kind row.1 command hother
  · obtain rfl := List.mem_singleton.mp hmine
    exact attempt_settles t kind row

theorem pass_settles (ht : t.Races) (hs : s.Solvent) (kind : TicketType) :
    (pass s (t.attempts kind s)).state.Solvent ∧
      s.Settled (pass s (t.attempts kind s)).state := by
  refine work_invariant (fun s' => s'.Solvent ∧ s.Settled s')
    (fun attempt hattempt command hcommand s' h => ?_) ⟨hs, .refl s⟩
  have hsettles := attempt_commands_settle ht hattempt command hcommand
  rw [after_exec]
  exact ⟨h.1.settle hsettles, h.2.trans (settled_step h.1.wellFormed hsettles)⟩

/-- Where a pass comes to a ticket: what led there, and what followed. -/
theorem pass_tried (ht : t.Races) (hs : s.Solvent)
    (htrial : trial ∈ (pass s (t.attempts kind s)).tried) :
    ∃ row ∈ s.expiredTickets kind (t.selectedAt kind),
      trial.2 = (t.attempt kind row).command ∧ trial.1.Solvent ∧ s.Settled trial.1 ∧
        ∃ later, (pass s (t.attempts kind s)).state = run step (step trial.1 trial.2) later := by
  obtain ⟨attempt, hattempt, hcommand, before, later, hbefore, hlater, hof⟩ := work_split htrial
  rw [after_exec] at hbefore hlater
  have hsettle : ∀ command ∈ before, command.Settles := by
    intro command hmem
    obtain ⟨other, hother, hmine⟩ := hof command (List.mem_append_left _ hmem)
    exact attempt_commands_settle ht hother command hmine
  obtain ⟨row, hrow, rfl⟩ := List.mem_map.mp hattempt
  obtain ⟨hsolvent, hsettled⟩ := settled_run hs hsettle
  rw [← hbefore] at hsolvent hsettled
  exact ⟨row, hrow, hcommand, hsolvent, hsettled, later, hlater⟩

/-- Every transaction of a pass concludes. -/
theorem pass_concludes (ht : t.Races) (hkey : ∃ key, t.env.chainKey = .ok key) (hs : s.Solvent)
    (hfits : ∀ trial ∈ (pass s (t.attempts kind s)).tried, RefundFits trial)
    (htrial : trial ∈ (pass s (t.attempts kind s)).tried) :
    ∃ row ∈ s.expiredTickets kind (t.selectedAt kind),
      trial.2 = (t.attempt kind row).command ∧
        Concludes kind row.1 trial (pass s (t.attempts kind s)).state := by
  obtain ⟨row, hrow, hcommand, hsolvent, hsettled, later, hlater⟩ := pass_tried ht hs htrial
  obtain ⟨ticket, hticket, -⟩ := mem_expiredTickets.mp hrow
  obtain ⟨ticket', hticket', -⟩ := hsettled.ticket kind row.1 ticket hticket
  have hfit := hfits trial htrial
  obtain ⟨met, command⟩ := trial
  subst hcommand
  rw [hlater]
  exact ⟨row, hrow, rfl, attempt_concludes hsolvent hticket' hkey hfit later⟩

/-- Whoever wins the races, a pass comes to every ticket that it listed, and none of its
kind is left expired. -/
theorem pass_finishes (ht : t.Races) (hkey : ∃ key, t.env.chainKey = .ok key) (hs : s.Solvent)
    (hfits : ∀ trial ∈ (pass s (t.attempts kind s)).tried, RefundFits trial) :
    (pass s (t.attempts kind s)).error = none ∧
      ∀ uid ticket, (pass s (t.attempts kind s)).state.ticketOf kind uid = some ticket →
        ¬ ticket.Expired (t.selectedAt kind) := by
  have hcaught : ∀ trial ∈ (pass s (t.attempts kind s)).tried, ∀ e,
      (Command.exec trial.1 trial.2).1 = .error e → e.IsRaise := by
    intro trial htrial e herror
    obtain ⟨row, -, -, ticket, -, ⟨-, hok, -⟩ | ⟨-, hterminal, -⟩⟩ :=
      pass_concludes ht hkey hs hfits htrial
    · rw [hok] at herror
      cases herror
    · rw [hterminal] at herror
      cases herror
      rfl
  obtain ⟨herror, htried⟩ := work_finishes hcaught
  refine ⟨herror, fun uid ticket hticket hexpired => ?_⟩
  obtain ⟨old, hold, hchange⟩ := (pass_settles ht hs kind).2.origin hticket
  have hdue := hexpired.of_settled hchange (hs.explained.tickets.shared kind uid old hold)
  have hlisted : (uid, old.status) ∈ s.expiredTickets kind (t.selectedAt kind) :=
    mem_expiredTickets.mpr ⟨old, hold, hdue, rfl⟩
  have hcommand : (t.attempt kind (uid, old.status)).command ∈
      (t.attempts kind s).map Attempt.command :=
    List.mem_map_of_mem (List.mem_map_of_mem hlisted)
  rw [← htried] at hcommand
  obtain ⟨⟨met, command⟩, htrial, rfl⟩ := List.mem_map.mp hcommand
  obtain ⟨-, -, -, hsolvent, hsettled, later, hlater⟩ := pass_tried ht hs htrial
  obtain ⟨old', hold', -⟩ := hsettled.ticket kind uid old hold
  have hconcludes := attempt_concludes hsolvent hold' hkey (hfits _ htrial) later
  exact (hlater ▸ hconcludes).not_expired hticket hexpired

/-- What a tick is for, whoever wins the races: every transaction concludes, those that
return are the ones counted, no expired ticket is left, and since `s` tickets have only
been settled, each at most once. -/
structure Concluded (t : Schedule) (s : Database) (result : Progress Database Command DbError) :
    Prop where
  finished : result.error = none
  settled : s.Settled result.state
  noneLeft : ∀ kind uid ticket, result.state.ticketOf kind uid = some ticket →
    ¬ ticket.Expired (t.selectedAt kind)
  concludes : ∀ trial ∈ result.tried, ∃ kind row,
    trial.2 = (t.attempt kind row).command ∧ Concludes kind row.1 trial result.state
  counted : result.acted =
    result.tried.filter fun trial => (Command.exec trial.1 trial.2).1.isOk
  further : ∀ t' : Schedule, t'.Races → (∀ kind uid ticket,
      result.state.ticketOf kind uid = some ticket →
      ticket.Expired (t'.selectedAt kind) → ticket.Expired (t.selectedAt kind)) →
    tick t' result.state = ⟨run step result.state t'.between, [], [], none⟩

/-- Others only settle tickets, cancellations can be audited, and the refunds that the
tick comes to fit. -/
structure Clear (t : Schedule) (s : Database) : Prop where
  races : t.Races
  key : ∃ key, t.env.chainKey = .ok key
  fits : ∀ trial ∈ (tick t s).tried, RefundFits trial

theorem tick_concludes (h : Clear t s) (hs : s.Solvent) : Concluded t s (tick t s) := by
  obtain ⟨ht, hkey, hfits⟩ := h
  obtain ⟨hend, hsettled⟩ := tick_settles ht hs
  have hfirst : ∀ trial ∈ (pass s (t.attempts .deposit s)).tried, RefundFits trial :=
    fun trial htrial => hfits trial (Progress.tried_subset_andThen htrial)
  obtain ⟨herror, hnone⟩ := pass_finishes ht hkey hs hfirst
  have htick : tick t s = _ := Progress.andThen_of_finished herror
  let middle := run step (pass s (t.attempts .deposit s)).state t.between
  have hsecond : ∀ trial ∈ (pass middle (t.attempts .withdraw middle)).tried, RefundFits trial := by
    intro trial htrial
    refine hfits trial ?_
    rw [htick]
    exact List.mem_append_right _ htrial
  obtain ⟨hsolvent, -⟩ := pass_settles ht hs .deposit
  obtain ⟨hmiddle, hbetween⟩ := settled_run hsolvent ht.between
  obtain ⟨herror', hnone'⟩ := pass_finishes ht hkey hmiddle hsecond
  obtain ⟨-, hlast⟩ := pass_settles ht hmiddle .withdraw
  obtain ⟨later, hlater, -⟩ := work_run Command.exec DbError.IsRaise middle
    (t.attempts .withdraw middle)
  rw [after_exec, ← run_append] at hlater
  have hnone : ∀ kind uid ticket, (tick t s).state.ticketOf kind uid = some ticket →
      ¬ ticket.Expired (t.selectedAt kind) := by
    intro kind uid ticket hticket hexpired
    rw [htick] at hticket
    cases kind with
    | deposit =>
        obtain ⟨old, hold, hchange⟩ := (hbetween.trans hlast).origin hticket
        exact hnone uid old hold
          (hexpired.of_settled hchange (hsolvent.explained.tickets.shared .deposit uid old hold))
    | withdraw => exact hnone' uid ticket hticket hexpired
  refine ⟨by rw [htick]; exact herror', hsettled, hnone, fun trial htrial => ?_, ?_,
    fun t' => tick_further hend hnone⟩
  · rw [htick] at htrial ⊢
    rcases List.mem_append.mp htrial with htrial | htrial
    · obtain ⟨row, -, hcommand, hconcludes⟩ := pass_concludes ht hkey hs hfirst htrial
      refine ⟨.deposit, row, hcommand, ?_⟩
      rw [pass, hlater]
      exact hconcludes.later hsolvent.wellFormed _
    · obtain ⟨row, -, hcommand, hconcludes⟩ := pass_concludes ht hkey hmiddle hsecond htrial
      exact ⟨.withdraw, row, hcommand, hconcludes⟩
  · rw [htick, List.filter_append]
    exact congrArg₂ (· ++ ·) (work_acted _ _ _ _) (work_acted _ _ _ _)

/-- The same races end the same way: of the tickets expired by `dueAt` the same ones are
confirmed, and the others have the same status. -/
def SameWinners (dueAt : TicketType → Timestamp) (s a b : Database) : Prop :=
  ∀ kind uid ticket, s.ticketOf kind uid = some ticket →
    (ticket.Expired (dueAt kind) →
      ((a.ticketOf kind uid).map Ticket.status = some .confirmed ↔
        (b.ticketOf kind uid).map Ticket.status = some .confirmed)) ∧
    (¬ ticket.Expired (dueAt kind) →
      (a.ticketOf kind uid).map Ticket.status = (b.ticketOf kind uid).map Ticket.status)

/-- An expired ticket that was settled, and is expired no more, is confirmed or cancelled. -/
theorem status_of_settled {ticket' : Ticket} (hexpired : ticket.Expired now)
    (hsettled : ticket.Settled ticket') (hcons : ticket'.Consistent)
    (hnot : ¬ ticket'.Expired now) :
    ticket'.status = .confirmed ∨ ticket'.status = .cancelled := by
  have hdue : ticket'.expiresAt < now := hsettled.expiresAt ▸ hexpired.2
  rcases hcons.status with hopen | hclaimed | hconfirmed | hcancelled
  · exact absurd ⟨.inl hopen, hdue⟩ hnot
  · exact absurd ⟨.inr hclaimed, hdue⟩ hnot
  · exact .inl hconfirmed
  · exact .inr hcancelled

theorem sameStatuses_of_winners {dueAt : TicketType → Timestamp} (ha : s.Settled a)
    (hb : s.Settled b) (hsa : a.Solvent) (hsb : b.Solvent)
    (hnone : ∀ kind uid ticket, a.ticketOf kind uid = some ticket → ¬ ticket.Expired (dueAt kind))
    (hnone' : ∀ kind uid ticket, b.ticketOf kind uid = some ticket →
      ¬ ticket.Expired (dueAt kind)) (hwinners : SameWinners dueAt s a b) :
    a.SameStatuses b := by
  intro kind uid
  cases hticket : s.ticketOf kind uid with
  | none => rw [ha.absent kind uid hticket, hb.absent kind uid hticket]
  | some ticket =>
      obtain ⟨hsame, hrest⟩ := hwinners kind uid ticket hticket
      by_cases hexpired : ticket.Expired (dueAt kind)
      · obtain ⟨ta, hta, hchange⟩ := ha.ticket kind uid ticket hticket
        obtain ⟨tb, htb, hchange'⟩ := hb.ticket kind uid ticket hticket
        have hstatus := status_of_settled hexpired hchange
          (hsa.explained.tickets.shared kind uid ta hta) (hnone kind uid ta hta)
        have hstatus' := status_of_settled hexpired hchange'
          (hsb.explained.tickets.shared kind uid tb htb) (hnone' kind uid tb htb)
        have hsame := hsame hexpired
        simp only [hta, htb, Option.map_some, Option.some.injEq] at hsame ⊢
        rcases hstatus with hstatus | hstatus <;> rcases hstatus' with hstatus' | hstatus' <;>
          simp_all
      · exact hrest hexpired

/-! ## Every reachable state -/

/-- Nobody else is at work, cancellations can be audited, and the refunds of all expired
withdraws fit their owners' balances. -/
structure Alone (t : Schedule) (s : Database) : Prop where
  quiet : t.Quiet
  key : ∃ key, t.env.chainKey = .ok key
  fits : s.RefundsFit (t.selectedAt .withdraw)

/-- What the worker does from a state, cut off as often as it may be before its tick ends. -/
structure TimesOutAll (s : Database) : Prop where
  complete : ∀ t, Alone t s → Completes t s (tick t s)
  resumes : ∀ crashes t, Alone t s → (∀ crash ∈ crashes, crash.2.Quiet ∧
      ∀ kind, crash.2.selectedAt kind ≤ t.selectedAt kind) →
    Completes t (afterCrashes s crashes) (tick t (afterCrashes s crashes)) ∧
      (tick t (afterCrashes s crashes)).state.SameOutcome (tick t s).state
  races : ∀ crashes t, (∀ crash ∈ crashes, crash.2.Races) → Clear t (afterCrashes s crashes) →
    Concluded t (afterCrashes s crashes) (tick t (afterCrashes s crashes)) ∧
      s.Settled (tick t (afterCrashes s crashes)).state
  converges : ∀ crashes t t', (∀ crash ∈ crashes, crash.2.Races) →
    Clear t (afterCrashes s crashes) → Clear t' s → t'.selectedAt = t.selectedAt →
    SameWinners t.selectedAt s (tick t (afterCrashes s crashes)).state (tick t' s).state →
    (tick t (afterCrashes s crashes)).state.SameOutcome (tick t' s).state

theorem timesOutAll_of_solvent (hs : s.Solvent) : TimesOutAll s := by
  constructor
  · intro t h
    exact tick_completes h.quiet h.key h.fits hs
  · intro crashes t h hcrashes
    exact tick_resumes hs hcrashes h.quiet h.key h.fits
  · intro crashes t hcrashes h
    obtain ⟨hsolvent, hsettled⟩ := afterCrashes_settles hs hcrashes
    exact ⟨tick_concludes h hsolvent, hsettled.trans (tick_settles h.races hsolvent).2⟩
  · intro crashes t t' hcrashes h h' hselected hwinners
    obtain ⟨hsolvent, hsettled⟩ := afterCrashes_settles hs hcrashes
    obtain ⟨hend, hsettled'⟩ := tick_settles h.races hsolvent
    obtain ⟨hend', honce⟩ := tick_settles h'.races hs
    have hnone := (tick_concludes h hsolvent).noneLeft
    have hnone' := (tick_concludes h' hs).noneLeft
    rw [hselected] at hnone'
    have hall := hsettled.trans hsettled'
    exact hall.sameOutcome honce hend.explained hend'.explained
      (sameStatuses_of_winners hall honce hend hend' hnone hnone' hwinners)

/-- In every state reached at sound rates the worker times everything out. -/
theorem timeout_sweep {s₀ : Database} (h₀ : s₀.EmptyLedger) (commands : List Command)
    (hrates : RatesSound s₀ commands) : TimesOutAll (run step s₀ commands) :=
  timesOutAll_of_solvent (solvent_run h₀ commands hrates)

/-- A tick a day after the tickets were opened. -/
def nextDay : Schedule :=
  ⟨.plain, fun _ => 86400000001, fun _ _ => 86400000001, fun _ _ => [], []⟩

/-- A claimed withdraw of 1000 times out. -/
theorem timeout_sweep_claimed :
    TimesOutAll (run step .seeded (openedRun ++ [claimWithdraw])) ∧
      (tick nextDay (run step .seeded (openedRun ++ [claimWithdraw]))).acted.length = 1 ∧
      (tick nextDay (run step .seeded (openedRun ++ [claimWithdraw]))).state.balanceOf 9 =
        (run step .seeded (openedRun ++ [claimWithdraw])).balanceOf 9 + 1000 := by
  have hrows : ∀ taken ∈ steps step .seeded (openedRun ++ [claimWithdraw]),
      taken.1.gameConfig.rows = gameDefaults.rows ∧
        taken.1.luckConfig.rows = seedLuckConfig.rows := by
    decide
  have hrates : RatesSound .seeded (openedRun ++ [claimWithdraw]) :=
    fun s env call hmem => soundRates_of_seeded (hrows _ hmem).1 (hrows _ hmem).2
  refine ⟨timeout_sweep seeded_empty _ hrates, ?_, ?_⟩
  · decide +kernel
  · decide +kernel

/-- The refund of a withdraw of a full account does not fit, and the tick stops there. -/
theorem timeout_sweep_full :
    nextDay.Quiet ∧ (tick nextDay (run step .seeded fullAccountRun)).error =
        some .bigintOutOfRange ∧
      ¬ ∀ kind uid ticket,
        (tick nextDay (run step .seeded fullAccountRun)).state.ticketOf kind uid = some ticket →
        ¬ ticket.Expired (nextDay.selectedAt kind) := by
  refine ⟨⟨fun _ _ => rfl, rfl⟩, by decide +kernel, fun hnone => ?_⟩
  have hleft : ((tick nextDay (run step .seeded fullAccountRun)).state.ticketOf .withdraw
      "withdraw-1").any (fun ticket => ticket.Expired 86400000001) = true := by
    decide +kernel
  obtain ⟨ticket, hticket, hexpired⟩ := (Option.any_eq_true _ _).mp hleft
  exact hnone .withdraw "withdraw-1" ticket hticket (of_decide_eq_true hexpired)

end TicketTimeout

end DeathRoll
