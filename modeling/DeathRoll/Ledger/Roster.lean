import DeathRoll.Ledger.Frames

/-! # The cashiers at work

A cashier is online exactly while one of their sessions has not ended, and two of them
never run at once. Only `dw.set_cashier_status` and `dw.expire_cashier` move cashiers
and open or end sessions.
-/

namespace DeathRoll

open Relational Tx

/-- `SET ended_at = NOW(), duration_s = _, end_reason = _`. -/
def CashierSession.close (session : CashierSession) (now : Timestamp) (reason : SessionEnd) :
    CashierSession :=
  { session with
    endedAt := some now, durationS := some (epochSeconds (now - session.startedAt)),
    endReason := some reason }

def Database.Online (s : Database) (cashier : Int) : Prop :=
  ∃ row, s.cashierStatus.get? cashier = some row ∧ row.status = .online

/-- A session of the cashier that has not ended. -/
structure Database.Running (s : Database) (cashier id : Int) (session : CashierSession) : Prop where
  row : s.cashierSessions.get? id = some session
  cashier : session.discordId = cashier
  open_ : session.endedAt = none

/-- Cashiers are online exactly while a session of theirs runs, one at a time. -/
structure Database.RosterConsistent (s : Database) : Prop where
  online : ∀ cashier, s.Online cashier ↔ ∃ id session, s.Running cashier id session
  unique : ∀ cashier i j first second, s.Running cashier i first → s.Running cashier j second →
    i = j

variable {env : Env} {s s' s₀ : Database} {cashier : Int}

/-! ## Writing the roster -/

theorem online_congr (hsame : s'.roster = s.roster) : s'.Online cashier ↔ s.Online cashier := by
  rw [Database.Online, show s'.cashierStatus = s.cashierStatus from congrArg Prod.fst hsame]
  rfl

theorem running_congr (hsame : s'.roster = s.roster) {id : Int} {session : CashierSession} :
    s'.Running cashier id session ↔ s.Running cashier id session := by
  have hsessions : s'.cashierSessions = s.cashierSessions := congrArg Prod.snd hsame
  constructor
  · rintro ⟨hrow, howner, hopen⟩
    exact ⟨hsessions ▸ hrow, howner, hopen⟩
  · rintro ⟨hrow, howner, hopen⟩
    exact ⟨hsessions ▸ hrow, howner, hopen⟩

theorem Database.RosterConsistent.congr (hs : s.RosterConsistent) (hsame : s'.roster = s.roster) :
    s'.RosterConsistent where
  online cashier := by simp only [online_congr hsame, running_congr hsame, hs.online]
  unique cashier i j first second hfirst hsecond :=
    hs.unique cashier i j first second ((running_congr hsame).mp hfirst)
      ((running_congr hsame).mp hsecond)

/-- From `s` to `s'` the cashier got a new status row. -/
def Database.Posts (s : Database) (cashier : Int) (row : CashierStatus) (s' : Database) : Prop :=
  ∀ other, s'.cashierStatus.get? other =
    if other = cashier then some row else s.cashierStatus.get? other

theorem Database.Posts.online {row : CashierStatus} (hposts : s.Posts cashier row s')
    (other : Int) :
    s'.Online other ↔ if other = cashier then row.status = .online else s.Online other := by
  unfold Database.Online
  rw [hposts other]
  split <;> simp

/-- Moving one cashier keeps the roster consistent when that cashier's own row and
sessions agree. -/
theorem Database.RosterConsistent.of_posts (hs : s.RosterConsistent) {row : CashierStatus}
    (hposts : s.Posts cashier row s')
    (hothers : ∀ other, other ≠ cashier → ∀ id session,
      s'.Running other id session ↔ s.Running other id session)
    (hown : row.status = .online ↔ ∃ id session, s'.Running cashier id session)
    (hunique : ∀ i j first second, s'.Running cashier i first → s'.Running cashier j second →
      i = j) : s'.RosterConsistent := by
  constructor
  · intro other
    rw [hposts.online]
    by_cases heq : other = cashier
    · rw [if_pos heq, heq, hown]
    · rw [if_neg heq, hs.online]
      simp only [hothers other heq]
  · intro other i j first second hfirst hsecond
    by_cases heq : other = cashier
    · exact hunique i j first second (heq ▸ hfirst) (heq ▸ hsecond)
    · rw [hothers other heq] at hfirst hsecond
      exact hs.unique other i j first second hfirst hsecond

/-- A cashier who stays online, or stays away. -/
theorem Database.RosterConsistent.stay (hs : s.RosterConsistent) {row : CashierStatus}
    (hposts : s.Posts cashier row s') (hstatus : row.status = .online ↔ s.Online cashier)
    (hsessions : s'.cashierSessions = s.cashierSessions) : s'.RosterConsistent := by
  have hrunning : ∀ c id session, s'.Running c id session ↔ s.Running c id session := by
    intro c id session
    exact ⟨fun h => ⟨hsessions ▸ h.row, h.cashier, h.open_⟩,
      fun h => ⟨hsessions ▸ h.row, h.cashier, h.open_⟩⟩
  refine hs.of_posts hposts (fun other _ => hrunning other) ?_ ?_
  · simp only [hstatus, hs.online, hrunning]
  · simp only [hrunning]
    exact hs.unique cashier

/-- A cashier who comes online starts a session. -/
theorem Database.RosterConsistent.start (hs : s.RosterConsistent) {row : CashierStatus}
    (hposts : s.Posts cashier row s') (hstatus : row.status = .online) (haway : ¬ s.Online cashier)
    {id : Int} {session : CashierSession} (hnew : s.cashierSessions.get? id = none)
    (howner : session.discordId = cashier) (hopen : session.endedAt = none)
    (hsessions : s'.cashierSessions = s.cashierSessions.insertNew id session) :
    s'.RosterConsistent := by
  have hget : ∀ key, s'.cashierSessions.get? key =
      if key = id then some session else s.cashierSessions.get? key := by
    intro key
    rw [hsessions, Table.get?_insertNew, hnew, Option.getD_none]
  have honly : ∀ key other, s'.Running cashier key other → key = id := by
    intro key other hrunning
    by_contra hne
    have hrow := hrunning.row
    rw [hget, if_neg hne] at hrow
    exact haway ((hs.online cashier).mpr ⟨key, other, hrow, hrunning.cashier, hrunning.open_⟩)
  refine hs.of_posts hposts (fun other hother key found => ?_) ?_ ?_
  · constructor
    · rintro ⟨hrow, hmine, hrunning⟩
      rw [hget] at hrow
      split at hrow
      next =>
        obtain rfl := Option.some.inj hrow
        exact absurd (hmine.symm.trans howner) hother
      next => exact ⟨hrow, hmine, hrunning⟩
    · rintro ⟨hrow, hmine, hrunning⟩
      have hne : key ≠ id := by
        rintro rfl
        rw [hnew] at hrow
        cases hrow
      exact ⟨by rw [hget, if_neg hne, hrow], hmine, hrunning⟩
  · exact iff_of_true hstatus ⟨id, session, by rw [hget, if_pos rfl], howner, hopen⟩
  · intro i j first second hfirst hsecond
    rw [honly i first hfirst, honly j second hsecond]

/-- From `s` to `s'` the running sessions of the cashier ended. -/
def Database.Closes (s : Database) (cashier : Int) (now : Timestamp) (reason : SessionEnd)
    (s' : Database) : Prop :=
  ∀ id, s'.cashierSessions.get? id = (s.cashierSessions.get? id).map fun session =>
    if session.discordId = cashier ∧ session.endedAt = none then session.close now reason
    else session

/-- A cashier who leaves ends the session. -/
theorem Database.RosterConsistent.finish (hs : s.RosterConsistent) {row : CashierStatus}
    (hposts : s.Posts cashier row s') (hstatus : row.status ≠ .online) {now : Timestamp}
    {reason : SessionEnd} (hcloses : s.Closes cashier now reason s') : s'.RosterConsistent := by
  have hnone : ∀ id session, ¬ s'.Running cashier id session := by
    rintro id session ⟨hrow, hmine, hrunning⟩
    rw [hcloses id] at hrow
    obtain ⟨old, -, rfl⟩ := Option.map_eq_some_iff.mp hrow
    split_ifs at hmine hrunning with hended
    · cases hrunning
    · exact hended ⟨hmine, hrunning⟩
  refine hs.of_posts hposts (fun other hother id session => ?_) ?_ ?_
  · constructor
    · rintro ⟨hrow, hmine, hrunning⟩
      rw [hcloses id] at hrow
      obtain ⟨old, hold, rfl⟩ := Option.map_eq_some_iff.mp hrow
      split_ifs at hmine hrunning hrow ⊢ with hended
      · cases hrunning
      · exact ⟨hold, hmine, hrunning⟩
    · rintro ⟨hrow, hmine, hrunning⟩
      refine ⟨?_, hmine, hrunning⟩
      rw [hcloses id, hrow, Option.map_some, if_neg fun h => hother (hmine.symm.trans h.1)]
  · exact iff_of_false hstatus (not_exists.mpr fun id => not_exists.mpr (hnone id))
  · intro i j first second hfirst
    exact absurd hfirst (hnone i first)

/-! ## The functions that move cashiers -/

theorem posts_set {old : CashierStatus} (hold : s.cashierStatus.get? cashier = some old)
    (row : CashierStatus) :
    s.Posts cashier row { s with cashierStatus := s.cashierStatus.set cashier row } := by
  intro other
  simp only [Table.get?_set]
  split
  next => simp [hold]
  next => rfl

/-- `endSessions` ends what runs. -/
theorem endSessions_closes {post : Unit → Database → Prop} {raised : DbError → Prop}
    (reason : SessionEnd)
    (hpost : ∀ s', s.Closes cashier env.now reason s' → s'.cashierStatus = s.cashierStatus →
      s'.users = s.users → post () s') :
    wp (endSessions env cashier reason) post raised s := by
  refine hpost _ (fun id => ?_) rfl rfl
  exact Table.get?_foldl_set
    (fun row => row.2.discordId = cashier ∧ row.2.endedAt = none)
    (fun row => row.2.close env.now reason) s.cashierSessions id

/-- From `s` to `s'` the cashier was expired. -/
structure Database.Expires (s : Database) (env : Env) (cashier : Int) (s' : Database) : Prop where
  online : s.Online cashier
  key : ∃ key, env.chainKey = .ok key
  user : s.HasUser cashier
  posts : s.Posts cashier ⟨.offline, env.now, env.now⟩ s'
  closes : s.Closes cashier env.now .expired s'
  users : s'.users = s.users

theorem expireCashier_expires (hok : (Call.expireCashier (some cashier)).Succeeds env s) :
    s.Expires env cashier (step s (.call env (.expireCashier (some cashier)))) := by
  have hwp : wp (callBody env (.expireCashier (some cashier)))
      (fun _ s' => s.Expires env cashier s') (fun _ => True) s := by
    simp only [callBody, expireCashier, wp_bind, wp_get, wp_set, wp_raiseIf, wp_notNull,
      wp_auditLogInsertWithChain, wp_pure, implies_true, true_and]
    rintro honline _ ⟨⟩
    rw [Table.select_some] at honline
    obtain ⟨row, hrow, hstatus⟩ := Option.map_eq_some_iff.mp (not_ne_iff.mp honline)
    refine endSessions_closes .expired fun s₁ hcloses hstatus₁ husers => ?_
    rintro key hkey _ - _ ⟨⟩ _ - _ - _ - _ - huser
    have huser' : s.HasUser cashier := fun hnone => huser (by rw [husers]; exact hnone)
    refine ⟨⟨row, hrow, hstatus⟩, ⟨key, hkey⟩, huser', ?_, hcloses, husers⟩
    intro other
    rw [← posts_set hrow _ other]
    exact congrArg (Table.get? · other) hstatus₁
  exact post_of_outcome hwp (transact_ok Database.rollback (Prod.ext hok rfl))

theorem expireCashier_returns (honline : s.Online cashier) (huser : s.HasUser cashier)
    {key : Bytes} (hkey : env.chainKey = .ok key) :
    (Call.expireCashier (some cashier)).Succeeds env s := by
  apply succeeds_of_wp
  obtain ⟨row, hrow, hstatus⟩ := honline
  simp only [callBody, expireCashier, wp_bind, wp_get, wp_set, wp_raiseIf, wp_notNull,
    wp_auditLogInsertWithChain, wp_pure]
  refine ⟨fun hnot => hnot (by simp [hrow, hstatus]), fun _ => ⟨by simp, ?_⟩⟩
  rintro _ ⟨⟩
  refine endSessions_closes .expired fun s₁ _ _ husers => ?_
  have huser₁ : s₁.users.get? cashier ≠ none := husers ▸ huser
  simp [hkey, huser₁]

theorem insertSession_starts {post : Unit → Database → Prop}
    (hpost : ∀ id s', s.cashierSessions.get? id = none →
      s'.cashierSessions = s.cashierSessions.insertNew id ⟨cashier, env.now, none, none, none⟩ →
      s'.cashierStatus = s.cashierStatus → post () s') :
    wp (insertSession env cashier) post (fun _ => True) s := by
  unfold insertSession
  simp only [wp_bind, wp_get, wp_set, wp_nextval, wp_raiseIf, implies_true, true_and]
  exact fun hnew => hpost _ _ (not_ne_iff.mp hnew) rfl rfl

theorem select_status_eq_online :
    (s.cashierStatus.select (some cashier)).map CashierStatus.status = some .online ↔
      s.Online cashier := by
  rw [Table.select_some, Option.map_eq_some_iff]
  rfl

/-- A cashier who changes status keeps the roster consistent. -/
theorem setCashierStatus_roster (hs : s.RosterConsistent) (d : Option Int) (t : Option String) :
    wp (setCashierStatus env d t) (fun _ s' => s'.RosterConsistent) (fun _ => True) s := by
  have haudit : ∀ (p : AuditParams) (s₂ : Database), s₂.RosterConsistent →
      wp (auditLogInsertWithChain env p) (fun _ s' => s'.RosterConsistent) (fun _ => True) s₂ :=
    fun p s₂ h₂ => wp_of_keeps (auditLogInsert_keeps.map fun o => o.2.2) fun _ _ hsame =>
      h₂.congr hsame
  unfold setCashierStatus
  simp only [wp_bind, wp_get, wp_set, wp_pure, wp_raiseIf, wp_notNull, wp_checkedText,
    implies_true, true_and]
  rintro - cashier rfl _ rfl status -
  have hposts : ∀ s₁ : Database, s₁.cashierStatus = upsert s.cashierStatus cashier
      ⟨status, env.now, env.now⟩ → s.Posts cashier ⟨status, env.now, env.now⟩ s₁ := by
    intro s₁ hstatus other
    rw [hstatus, upsert_get?]
  rw [wp_ifDo]
  constructor
  · rintro ⟨rfl, haway⟩
    rw [Ne, select_status_eq_online] at haway
    refine insertSession_starts fun id s₁ hnew hsessions hstatus => ?_
    refine (wp_ifDo _ _).mpr ⟨fun hleaves => absurd rfl hleaves.1, fun _ => haudit _ s₁ ?_⟩
    exact hs.start (hposts s₁ hstatus) rfl haway hnew rfl rfl hsessions
  · intro hstays
    refine (wp_ifDo _ _).mpr ⟨fun hleaves => ?_, fun hnot => haudit _ _ ?_⟩
    · refine endSessions_closes _ fun s₁ hcloses hstatus _ => haudit _ s₁ ?_
      exact hs.finish (hposts s₁ hstatus) hleaves.1 hcloses
    · refine hs.stay (hposts _ rfl) ?_ rfl
      rw [Ne, select_status_eq_online] at hstays
      rw [select_status_eq_online] at hnot
      by_cases hstatus : status = .online
      · exact iff_of_true hstatus (not_not.mp fun haway => hstays ⟨hstatus, haway⟩)
      · exact iff_of_false hstatus fun honline => hnot ⟨hstatus, honline⟩

theorem expireCashier_roster (hs : s.RosterConsistent)
    (hok : (Call.expireCashier (some cashier)).Succeeds env s) :
    (step s (.call env (.expireCashier (some cashier)))).RosterConsistent :=
  hs.finish (expireCashier_expires hok).posts (by simp) (expireCashier_expires hok).closes

/-! ## Runs -/

/-- All other calls leave the roster alone. -/
theorem callBody_keepsRoster (call : Call) (hstatus : ∀ d t, call ≠ .setCashierStatus d t)
    (hexpire : ∀ d, call ≠ .expireCashier d) :
    (callBody env call).Keeps Database.roster := by
  have hobserved : ∀ {α : Type} {x : LedgerTx α}, x.Keeps Database.observed →
      x.Keeps Database.roster := fun hx => hx.map fun o => o.2.2
  have huncounted : ∀ {α : Type} {x : LedgerTx α}, x.Keeps Database.uncounted →
      x.Keeps Database.roster := fun hx => hx.map fun o => o.2
  have hcashiers : ∀ {α : Type} {x : LedgerTx α}, x.Keeps Database.cashiers →
      x.Keeps Database.roster := fun hx => hx.map fun o => o.2
  cases call
  case setCashierStatus => exact absurd rfl (hstatus _ _)
  case expireCashier => exact absurd rfl (hexpire _)
  case createDepositTicket => exact (hobserved createDepositTicket_keeps).bind fun _ => keeps_pure _
  case confirmDeposit => exact (huncounted confirmDeposit_keeps).bind fun _ => keeps_pure _
  case cancelDeposit => exact hobserved cancelDeposit_keeps
  case createWithdrawTicket =>
      exact (hobserved createWithdrawTicket_keeps).bind fun _ => keeps_pure _
  case confirmWithdraw => exact (huncounted confirmWithdraw_keeps).bind fun _ => keeps_pure _
  case cancelWithdraw => exact (huncounted cancelWithdraw_keeps).bind fun _ => keeps_pure _
  case claimTicket => exact hobserved claimTicket_keeps
  case releaseTicket => exact hobserved releaseTicket_keeps
  case openDispute => exact (hobserved openDispute_keeps).bind fun _ => keeps_pure _
  case resolveDispute => exact hobserved resolveDispute_keeps
  case rejectDispute => exact hobserved rejectDispute_keeps
  case treasurySweep => exact (hobserved treasurySweep_keeps).bind fun _ => keeps_pure _
  case treasuryWithdrawToUser => exact hobserved treasuryWithdrawToUser_keeps
  case addCashierCharacter => exact (hobserved addCashierCharacter_keeps).bind fun _ => keeps_pure _
  case removeCashierCharacter => exact hobserved removeCashierCharacter_keeps
  case banUser => exact hobserved banUser_keeps
  case unbanUser => exact hobserved unbanUser_keeps
  case applyBet => exact (hcashiers applyBet_keeps).bind fun _ => keeps_pure _
  case resolveBet => exact hcashiers resolveBet_keeps
  case refundBet => exact hcashiers refundBet_keeps
  case cashoutMines => exact hcashiers cashoutMines_keeps
  case consumeRateToken => exact (hobserved consumeRateToken_keeps).bind fun _ => keeps_pure _
  case grantRaffleTickets => exact (hobserved grantRaffleTickets_keeps).bind fun _ => keeps_pure _

theorem rosterConsistent_step (hs : s.RosterConsistent) (command : Command) :
    (step s command).RosterConsistent := by
  cases command with
  | config write => exact hs.congr (by cases write <;> rfl)
  | call env call =>
      by_cases hok : call.Succeeds env s
      · have hcommitted := transact_ok Database.rollback
          (Prod.ext (hok : (call.exec env s).1 = .ok ()) rfl)
        cases call
        case setCashierStatus d t => exact post_of_outcome (setCashierStatus_roster hs d t) hcommitted
        case expireCashier d =>
            cases d with
            | none =>
                have hwp : wp (callBody env (.expireCashier none)) (fun _ _ => False)
                    (fun _ => True) s := by
                  simp only [callBody, expireCashier, wp_bind, wp_get, wp_raiseIf, wp_notNull,
                    implies_true, true_and]
                  rintro - _ ⟨⟩
                exact (post_of_outcome hwp hcommitted).elim
            | some cashier => exact expireCashier_roster hs hok
        all_goals
          exact hs.congr (post_of_outcome (callBody_keepsRoster _ (by simp) (by simp) s) hcommitted)
      · obtain ⟨atError, heq⟩ := step_of_fails hok
        rw [heq]
        exact hs.congr rfl

/-- From a database without cashiers on, cashiers are online exactly while a session
of theirs runs. -/
theorem rosterConsistent_run (hstatus : s₀.cashierStatus = .empty)
    (hsessions : s₀.cashierSessions = .empty) (commands : List Command) :
    (run step s₀ commands).RosterConsistent := by
  have hstart : s₀.RosterConsistent := by
    refine ⟨fun cashier => iff_of_false ?_ ?_, fun cashier i j first second hfirst => ?_⟩
    · rintro ⟨row, hrow, -⟩
      simp [hstatus] at hrow
    · rintro ⟨id, session, hrow, -⟩
      simp [hsessions] at hrow
    · have hrow := hfirst.row
      simp [hsessions] at hrow
  have hstep : ∀ (s : Database) (command : Command), True → s.RosterConsistent →
      (step s command).RosterConsistent := fun s command _ hs => rosterConsistent_step hs command
  exact run_invariant hstep hstart fun _ _ => trivial

end DeathRoll
