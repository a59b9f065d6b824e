import DeathRoll.Fairness.EnsureSeeds
import DeathRoll.Fairness.Verifiable

/-! # Racing for a seed

Each call that finds no seed generates one in the end, so calls that search at once never make
one bootstrap; calls that search one at a time always do.
-/

namespace DeathRoll

open Relational

namespace EnsureWorld

variable {τ : Type} [DecidableEq τ] {crypto : Crypto} {w w' : EnsureWorld τ} {discordId : Int}

/-! ## Calls that search at once -/

/-- A call that has found no seed and has not asked for one yet owes one. -/
def owes (discordId : Int) (w : EnsureWorld τ) (tx : τ) : ℕ :=
  match w.calls tx with
  | some (other, .rotating) => if other = discordId then 1 else 0
  | _ => 0

/-- How many seeds have been generated for the user. -/
def made (discordId : Int) (w : EnsureWorld τ) : ℕ := (w.generatedFor discordId).length

omit [DecidableEq τ] in
theorem made_generate (w : EnsureWorld τ) (discordId other : Int) (vNewSeed : RandomBytes 32) :
    made discordId (w.generate other vNewSeed) =
      made discordId w + if other = discordId then 1 else 0 := by
  by_cases hother : other = discordId
  · simp [made, generatedFor, generate, hother]
  · simp [made, generatedFor, generate, hother]

/-- What a call owes it generates, and nothing is taken back. -/
theorem owes_advance (crypto : Crypto) {tx : τ} {other : Int} {stage : EnsureStage}
    (hcall : w.calls tx = some (other, stage)) (vNewSeed : RandomBytes 32)
    (clientBytes : RandomBytes 8) :
    made discordId w ≤ made discordId (w.advance crypto tx other vNewSeed clientBytes stage) ∧
    made discordId w + owes discordId w tx ≤
      made discordId (w.advance crypto tx other vNewSeed clientBytes stage) +
        owes discordId (w.advance crypto tx other vNewSeed clientBytes stage) tx := by
  cases stage with
  | rotating =>
      have howes : owes discordId w tx = if other = discordId then 1 else 0 := by
        rw [owes, hcall]
      have hmade := made_generate w discordId other vNewSeed
      simp only [advance]
      split
      · change made discordId w ≤ made discordId (w.generate other vNewSeed) ∧
          made discordId w + owes discordId w tx ≤ made discordId (w.generate other vNewSeed) + _
        omega
      · exact ⟨le_rfl, le_rfl⟩
      · change made discordId w ≤ made discordId (w.generate other vNewSeed) ∧
          made discordId w + owes discordId w tx ≤ made discordId (w.generate other vNewSeed) + _
        omega
  | _ =>
      have howes : owes discordId w tx = 0 := by
        rw [owes, hcall]
      rw [howes]
      simp only [advance]
      repeat' split
      all_goals exact ⟨le_rfl, Nat.le_add_right _ _⟩

theorem made_step (crypto : Crypto) (w : EnsureWorld τ) (move : EnsureMove τ) :
    made discordId w ≤ made discordId (w.step crypto move) := by
  cases move with
  | start tx other =>
      simp only [step]
      split
      · exact le_rfl
      · exact le_rfl
  | next tx vNewSeed clientBytes =>
      simp only [step]
      split
      next => exact le_rfl
      next other stage hcall => exact (owes_advance crypto hcall vNewSeed clientBytes).1

theorem owes_step (crypto : Crypto) {tx : τ} (hstarted : w.calls tx ≠ none) (move : EnsureMove τ) :
    made discordId w + owes discordId w tx ≤
      made discordId (w.step crypto move) + owes discordId (w.step crypto move) tx := by
  by_cases hmove : nextOf move = some tx
  · cases move with
    | start => cases hmove
    | next other vNewSeed clientBytes =>
        cases hmove
        simp only [step]
        split
        next => exact le_rfl
        next other stage hcall => exact (owes_advance crypto hcall vNewSeed clientBytes).2
  · have hmade := @made_step τ _ discordId crypto w move
    rw [owes, owes, calls_step_of_ne crypto hstarted hmove]
    omega

/-- Two calls owe on their own. -/
theorem owes_step_both (crypto : Crypto) {tx other : τ} (hne : tx ≠ other)
    (htx : w.calls tx ≠ none) (hother : w.calls other ≠ none) (move : EnsureMove τ) :
    made discordId w + owes discordId w tx + owes discordId w other ≤
      made discordId (w.step crypto move) + owes discordId (w.step crypto move) tx +
        owes discordId (w.step crypto move) other := by
  by_cases hmove : nextOf move = some tx
  · have hown := @owes_step τ _ w discordId crypto tx htx move
    have hsame : owes discordId (w.step crypto move) other = owes discordId w other := by
      rw [owes, owes, calls_step_of_ne crypto hother
        (by rw [hmove]; exact fun hsame => hne (Option.some.inj hsame))]
    omega
  · have hown := @owes_step τ _ w discordId crypto other hother move
    have hsame : owes discordId (w.step crypto move) tx = owes discordId w tx := by
      rw [owes, owes, calls_step_of_ne crypto htx hmove]
    omega

theorem calls_advance (crypto : Crypto) {tx : τ} {other : Int} {stage : EnsureStage}
    (hcall : w.calls tx = some (other, stage)) (vNewSeed : RandomBytes 32)
    (clientBytes : RandomBytes 8) :
    ∃ stage', (w.advance crypto tx other vNewSeed clientBytes stage).calls tx =
      some (other, stage') := by
  cases stage <;> simp only [advance]
  all_goals repeat' split
  all_goals first | exact ⟨_, hcall⟩ | exact ⟨_, calls_goOn_self _ tx _⟩

theorem calls_step_ne_none (crypto : Crypto) {tx : τ} (hstarted : w.calls tx ≠ none)
    (move : EnsureMove τ) : (w.step crypto move).calls tx ≠ none := by
  by_cases hmove : nextOf move = some tx
  · cases move with
    | start => cases hmove
    | next other vNewSeed clientBytes =>
        cases hmove
        simp only [step]
        split
        next => exact hstarted
        next other stage hcall =>
          obtain ⟨stage', hcall'⟩ := calls_advance crypto hcall vNewSeed clientBytes
          rw [hcall']
          exact Option.some_ne_none _
  · rwa [calls_step_of_ne crypto hstarted hmove]

/-- Whoever is searching has generated a seed or owes one. -/
def Pays (discordId : Int) (w : EnsureWorld τ) : Prop :=
  ∀ tx stage, w.calls tx = some (discordId, stage) → Searching stage →
    1 ≤ made discordId w + owes discordId w tx

/-- A call that begins to search owes a seed. -/
theorem pays_advance (crypto : Crypto) {tx : τ} {stage stage' : EnsureStage}
    (hcall : w.calls tx = some (discordId, stage)) (hidle : ¬ Searching stage)
    (vNewSeed : RandomBytes 32) (clientBytes : RandomBytes 8)
    (hcall' : (w.advance crypto tx discordId vNewSeed clientBytes stage).calls tx =
      some (discordId, stage')) (hsearching : Searching stage') :
    owes discordId (w.advance crypto tx discordId vNewSeed clientBytes stage) tx = 1 := by
  have hended : ∀ result, (w.goOn tx discordId (.ended result)).calls tx =
      some (discordId, stage') → False := by
    intro result hcall'
    rw [calls_goOn_self, Option.some.injEq, Prod.mk.injEq] at hcall'
    rw [← hcall'.2] at hsearching
    exact hsearching
  cases stage with
  | reading =>
      simp only [advance] at hcall' ⊢
      split at hcall'
      · exact (hended _ hcall').elim
      · rw [owes, calls_goOn_self]
        exact if_pos rfl
  | rereading =>
      simp only [advance] at hcall'
      split at hcall'
      · exact (hended _ hcall').elim
      · exact (hended _ hcall').elim
  | ended result =>
      rw [advance, hcall, Option.some.injEq, Prod.mk.injEq] at hcall'
      rw [← hcall'.2] at hsearching
      exact hsearching.elim
  | _ => exact absurd trivial hidle

theorem Pays.step (h : Pays discordId w) (crypto : Crypto) (move : EnsureMove τ) :
    Pays discordId (w.step crypto move) := by
  intro tx stage' hcall' hsearching
  cases hcall : w.calls tx with
  | none =>
      cases move with
      | start other other' =>
          simp only [EnsureWorld.step] at hcall'
          split at hcall'
          next =>
            by_cases hother : tx = other
            · subst hother
              rw [calls_goOn_self, Option.some.injEq, Prod.mk.injEq] at hcall'
              rw [← hcall'.2] at hsearching
              exact hsearching.elim
            · rw [calls_goOn_of_ne w hother, hcall] at hcall'
              cases hcall'
          next =>
            rw [hcall] at hcall'
            cases hcall'
      | next other vNewSeed clientBytes =>
          simp only [EnsureWorld.step] at hcall'
          split at hcall'
          next =>
            rw [hcall] at hcall'
            cases hcall'
          next hother =>
            have hne : tx ≠ other := by
              rintro rfl
              rw [hcall] at hother
              cases hother
            rw [calls_advance_of_ne crypto w hne, hcall] at hcall'
            cases hcall'
  | some started =>
      have hstarted : w.calls tx ≠ none := by
        rw [hcall]
        exact Option.some_ne_none _
      have hmono := @owes_step τ _ w discordId crypto tx hstarted move
      by_cases hmove : nextOf move = some tx
      · cases move with
        | start => cases hmove
        | next other vNewSeed clientBytes =>
            cases hmove
            obtain ⟨other, stage⟩ := started
            obtain ⟨stage'', hsame⟩ := calls_advance crypto hcall vNewSeed clientBytes
            simp only [EnsureWorld.step, hcall] at hcall' hmono ⊢
            obtain rfl : other = discordId := by
              rw [hsame, Option.some.injEq, Prod.mk.injEq] at hcall'
              exact hcall'.1
            by_cases hidle : Searching stage
            · exact (h tx stage hcall hidle).trans hmono
            · rw [pays_advance crypto hcall hidle vNewSeed clientBytes hcall' hsearching]
              omega
      · rw [calls_step_of_ne crypto hstarted hmove] at hcall'
        exact (h tx stage' hcall' hsearching).trans hmono

/-- Two calls have generated a seed each, or owe one. -/
def BothPay (discordId : Int) (tx other : τ) (w : EnsureWorld τ) : Prop :=
  w.calls tx ≠ none ∧ w.calls other ≠ none ∧
    2 ≤ made discordId w + owes discordId w tx + owes discordId w other

/-- A call that finds nothing while another is searching searches, too. -/
theorem bothPay_of_not_alone (h : Pays discordId w) (crypto : Crypto) {move : EnsureMove τ}
    (hnot : ¬ ReadsAlone discordId w move) :
    ∃ tx other, tx ≠ other ∧ BothPay discordId tx other (w.step crypto move) := by
  cases move with
  | start => exact absurd trivial hnot
  | next tx vNewSeed clientBytes =>
      simp only [ReadsAlone, ne_eq, Classical.not_imp, not_or, not_not, not_forall] at hnot
      obtain ⟨hcall, hnone, other, stage, hother, hsearching⟩ := hnot
      have hne : tx ≠ other := by
        rintro rfl
        rw [hcall, Option.some.injEq, Prod.mk.injEq] at hother
        exact hsearching.not_reading hother.2.symm
      have hstep : w.step crypto (.next tx vNewSeed clientBytes) = w.goOn tx discordId .rotating := by
        simp only [step, hcall, advance, hnone]
      have hpays := h other stage hother hsearching
      refine ⟨tx, other, hne, ?_⟩
      rw [hstep]
      refine ⟨by rw [calls_goOn_self]; exact Option.some_ne_none _,
        by rw [calls_goOn_of_ne w hne.symm, hother]; exact Option.some_ne_none _, ?_⟩
      have hown : owes discordId (w.goOn tx discordId .rotating) tx = 1 := by
        rw [owes, calls_goOn_self]
        exact if_pos rfl
      have hsame : owes discordId (w.goOn tx discordId .rotating) other = owes discordId w other := by
        rw [owes, owes, calls_goOn_of_ne w hne.symm]
      change 2 ≤ made discordId w + _ + _
      omega

/-- The user's calls have all ended. -/
def Complete (discordId : Int) (w : EnsureWorld τ) : Prop :=
  ∀ tx stage, w.calls tx = some (discordId, stage) → ∃ result, stage = .ended result

omit [DecidableEq τ] in
theorem Complete.owes_eq_zero (h : Complete discordId w) (tx : τ) : owes discordId w tx = 0 := by
  unfold owes
  split
  next other hcall =>
    refine if_neg fun hsame => ?_
    obtain ⟨result, hended⟩ := h tx _ (hsame ▸ hcall)
    cases hended
  next => rfl

/-- Where two calls have searched at once, more than one seed is generated in the end. -/
theorem two_made {moves : List (EnsureMove τ)} (h : Pays discordId w)
    {before : EnsureWorld τ} {move : EnsureMove τ}
    (hmem : (before, move) ∈ steps (step crypto) w moves) (hnot : ¬ ReadsAlone discordId before move)
    (hcomplete : Complete discordId (run (step crypto) w moves)) :
    2 ≤ made discordId (run (step crypto) w moves) := by
  obtain ⟨first, rest, rfl, rfl⟩ := exists_split_of_mem_steps _ hmem
  have hpay : ∀ (w : EnsureWorld τ) (move : EnsureMove τ), True → Pays discordId w →
      Pays discordId (w.step crypto move) := fun w move _ h => h.step crypto move
  have hpays : Pays discordId (run (step crypto) w first) :=
    run_invariant hpay h fun _ _ => trivial
  obtain ⟨tx, other, hne, hboth⟩ := bothPay_of_not_alone hpays crypto hnot
  have hstep : ∀ (w : EnsureWorld τ) (move : EnsureMove τ), True → BothPay discordId tx other w →
      BothPay discordId tx other (w.step crypto move) := fun w move _ ⟨htx, hother, hsum⟩ =>
    ⟨calls_step_ne_none crypto htx move, calls_step_ne_none crypto hother move,
      hsum.trans (owes_step_both crypto hne htx hother move)⟩
  rw [run_append, run_cons] at hcomplete ⊢
  have hend := (run_invariant hstep hboth fun _ _ => trivial : BothPay discordId tx other
    (run (step crypto) _ rest)).2.2
  rwa [hcomplete.owes_eq_zero, hcomplete.owes_eq_zero] at hend

/-! ## Every interleaving -/

variable {seeds : FairnessWorld τ}

omit [DecidableEq τ] in
theorem inOrder_initial (hsound : seeds.Sound crypto) (hfree : seeds.userSeeds discordId = .free none)
    (hhistory : seeds.historyOf discordId = []) : InOrder crypto discordId (initial seeds) :=
  ⟨hsound, .fresh hfree (fun tx stage hcall => by cases hcall) rfl, hhistory⟩

/-- As long as no call makes its first `SELECT` while another that found nothing is searching,
the calls make one seed and return it, each within six statements. In a run whose calls have
all ended they have done so only if no call has. -/
theorem ensures_one_seed (hsound : seeds.Sound crypto)
    (hfree : seeds.userSeeds discordId = .free none) (hhistory : seeds.historyOf discordId = [])
    (moves : List (EnsureMove τ)) :
    ((∀ before move, (before, move) ∈ steps (step crypto) (initial seeds) moves →
        ReadsAlone discordId before move) →
      Bootstrapped discordId (run (step crypto) (initial seeds) moves) ∧
        ∀ first rest tx stage, moves = first ++ rest →
          (run (step crypto) (initial seeds) first).calls tx = some (discordId, stage) →
          6 ≤ rest.countP (fun move => nextOf move = some tx) →
            ∃ result, (run (step crypto) (initial seeds) moves).calls tx =
              some (discordId, .ended result)) ∧
    (Complete discordId (run (step crypto) (initial seeds) moves) →
      Bootstrapped discordId (run (step crypto) (initial seeds) moves) →
        ∀ before move, (before, move) ∈ steps (step crypto) (initial seeds) moves →
          ReadsAlone discordId before move) := by
  have hinitial := inOrder_initial hsound hfree hhistory
  have hstep : ∀ (w : EnsureWorld τ) (move : EnsureMove τ), ReadsAlone discordId w move →
      InOrder crypto discordId w → InOrder crypto discordId (w.step crypto move) :=
    fun w move halone h => h.step halone
  constructor
  · intro halone
    have hend := run_invariant_of_steps hstep hinitial halone
    refine ⟨hend.bootstraps.bootstrapped hend.history, ?_⟩
    rintro first rest tx stage rfl hcall henough
    have hfirst := run_invariant_of_steps hstep hinitial fun before move hmem =>
      halone before move (by rw [steps_append]; exact List.mem_append_left _ hmem)
    obtain ⟨stage', hcall', hleft⟩ := remaining_run hfirst (fun before move hmem =>
      halone before move (by rw [steps_append]; exact List.mem_append_right _ hmem)) hcall
    -- six steps are enough to end any call
    have hmost : remaining stage ≤ 6 := by
      cases stage <;> simp [remaining]
    have hnone : remaining stage' = 0 := by
      omega
    rw [run_append, hcall']
    cases stage' with
    | ended result => exact ⟨result, rfl⟩
    | _ => simp [remaining] at hnone
  · intro hcomplete hbootstrapped before move hmem
    by_contra hnot
    have hpays : Pays discordId (initial seeds) := fun tx stage hcall => by cases hcall
    -- a read beside another call makes a second seed
    have htwo := two_made hpays hmem hnot hcomplete
    have hone := hbootstrapped.generated_le
    exact absurd (htwo.trans hone) (by decide)

/-- The next statement of a call, with random bytes that are all the same. -/
def nextWith (tx : ℕ) (byte : UInt8) : EnsureMove ℕ :=
  .next tx ⟨List.replicate 32 byte, List.length_replicate⟩
    ⟨List.replicate 8 byte, List.length_replicate⟩

/-- Two calls start at once, and one goes through before the other reads. -/
def oneAfterOther : List (EnsureMove ℕ) :=
  [.start 1 7, .start 2 7, nextWith 1 1, nextWith 1 1, nextWith 1 1, nextWith 1 1, nextWith 1 1,
    nextWith 2 2]

/-- What a call has returned, if it has. -/
def returnedTo (w : EnsureWorld ℕ) (tx : ℕ) : Option SeedState :=
  match w.calls tx with
  | some (_, .ended (.ok state)) => some state
  | _ => none

/-- Both calls return, and what they return is the one seed. -/
theorem ensures_one_seed_twoCalls :
    Bootstrapped 7 (run (step sampleCrypto) (initial .empty) oneAfterOther) ∧
      (returnedTo (run (step sampleCrypto) (initial .empty) oneAfterOther) 1).isSome ∧
      (returnedTo (run (step sampleCrypto) (initial .empty) oneAfterOther) 2).isSome := by
  refine ⟨((ensures_one_seed (FairnessWorld.sound_run []) rfl rfl oneAfterOther).1 ?_).1, ?_⟩
  · intro before move hmem
    simp only [oneAfterOther, steps_cons, steps_nil, List.mem_cons, List.not_mem_nil, or_false,
      Prod.mk.injEq] at hmem
    rcases hmem with ⟨rfl, rfl⟩ | ⟨rfl, rfl⟩ | ⟨rfl, rfl⟩ | ⟨rfl, rfl⟩ | ⟨rfl, rfl⟩ | ⟨rfl, rfl⟩ |
      ⟨rfl, rfl⟩ | ⟨rfl, rfl⟩
    · trivial
    · trivial
    · -- the other call has not read yet
      refine fun _ => .inr fun other stage hcall hsearching => ?_
      by_cases hfirst : other = 1
      · subst hfirst
        cases hcall
        exact hsearching
      · by_cases hsecond : other = 2
        · subst hsecond
          cases hcall
          exact hsearching
        · simp [step, initial, calls_goOn_of_ne, hfirst, hsecond] at hcall
    · exact fun hcall => absurd hcall (by decide +kernel)
    · exact fun hcall => absurd hcall (by decide +kernel)
    · exact fun hcall => absurd hcall (by decide +kernel)
    · exact fun hcall => absurd hcall (by decide +kernel)
    · -- the other call finds the seed
      exact fun _ => .inl (by decide +kernel)
  · decide +kernel

/-- Two calls that both find nothing, before either inserts. -/
def insertRace : List (EnsureMove ℕ) :=
  [.start 1 7, .start 2 7, nextWith 1 1, nextWith 2 2, nextWith 1 1, nextWith 2 2, nextWith 1 1,
    nextWith 1 1, nextWith 2 2]

/-- Two calls that both find nothing, and one is through before the other goes on. -/
def rotateRace : List (EnsureMove ℕ) :=
  [.start 1 7, .start 2 7, nextWith 1 1, nextWith 2 2, nextWith 1 1, nextWith 1 1, nextWith 1 1,
    nextWith 1 1, nextWith 2 2, nextWith 2 2, nextWith 2 2, nextWith 2 2, nextWith 2 2]

/-- One of two calls raises, or the second rotates the seed that the first has returned. -/
theorem calls_race :
    (run (step sampleCrypto) (initial .empty) insertRace).calls 2 =
        some (7, .ended (.error (.database (.uniqueViolation "user_seeds_pkey")))) ∧
      ¬ Bootstrapped 7 (run (step sampleCrypto) (initial .empty) insertRace) ∧
      (run (step sampleCrypto) (initial .empty) rotateRace).seeds.historyOf 7 ≠ [] ∧
      ¬ Bootstrapped 7 (run (step sampleCrypto) (initial .empty) rotateRace) := by
  have hraised : (run (step sampleCrypto) (initial .empty) insertRace).calls 2 =
      some (7, .ended (.error (.database (.uniqueViolation "user_seeds_pkey")))) := by
    decide +kernel
  have hrotated : (run (step sampleCrypto) (initial .empty) rotateRace).seeds.historyOf 7 ≠ [] := by
    decide +kernel
  refine ⟨hraised, fun hbootstrapped => ?_, hrotated, fun hbootstrapped =>
    hrotated hbootstrapped.history⟩
  obtain ⟨state, -, hreturned⟩ := hbootstrapped.returned
  cases hreturned 2 _ hraised

end EnsureWorld

end DeathRoll
