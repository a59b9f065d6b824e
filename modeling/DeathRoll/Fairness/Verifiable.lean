import DeathRoll.Fairness.UserSeeds
import DeathRoll.Relational.Nonces
import Mathlib.Data.Set.Function

/-! # Tickets can be verified, and randomness is not reused

The outcomes of a run are a log of numbered draws under secret keys: the server
seeds. When `gen_random_bytes(32)` never repeats a value no seed is introduced
twice, and what is known about such logs applies.
-/

namespace DeathRoll

open Relational

/-! ## The outcomes as numbered draws -/

/-- The seed an outcome puts in use. -/
def SeedOutcome.newSeed : SeedOutcome → Option Bytes
  | .rotated _ newSeed => some newSeed
  | .created _ newSeed => some newSeed
  | .drew .. | .clientSeedSet .. => none

/-- The draw of an outcome. -/
def SeedOutcome.draw : SeedOutcome → Option Draw
  | .drew _ draw => some draw
  | _ => none

/-- The draw of an outcome of this user. -/
def SeedOutcome.drawOf (discordId : Int) : SeedOutcome → Option Draw
  | .drew user draw => if user = discordId then some draw else none
  | _ => none

/-- A successful `fairness.rotate_user_seed` of this user. -/
def SeedOutcome.Rotates (discordId : Int) : SeedOutcome → Prop
  | .rotated history _ => history.discordId = discordId
  | .created user _ => user = discordId
  | .drew .. | .clientSeedSet .. => False

def SeedOutcome.nonceEvent : SeedOutcome → Option (NonceEvent Int Bytes)
  | .drew discordId draw => some (.draw discordId draw.rawSeed draw.nonce)
  | .clientSeedSet .. => none
  | .rotated history newSeed =>
      some (.renew history.discordId (some (history.revealedServerSeed, history.lastNonce)) newSeed)
  | .created discordId newSeed => some (.renew discordId none newSeed)

/-- The key in use and the counter of every user. -/
def seedCells (seeds : Int → Option UserSeed) (discordId : Int) : Option (Bytes × Int) :=
  (seeds discordId).map fun row => (row.serverSeed, row.nonce)

section Log

variable (log : List SeedOutcome)

theorem introduced_nonceEvents :
    (log.filterMap SeedOutcome.nonceEvent).filterMap NonceEvent.introduced =
      log.filterMap SeedOutcome.newSeed := by
  rw [List.filterMap_filterMap]
  apply List.filterMap_congr
  intro outcome _
  cases outcome <;> rfl

theorem retired_nonceEvents :
    (log.filterMap SeedOutcome.nonceEvent).filterMap NonceEvent.retired =
      (log.filterMap SeedOutcome.history).map FairnessHistory.revealedServerSeed := by
  rw [List.filterMap_filterMap, List.map_filterMap]
  apply List.filterMap_congr
  intro outcome _
  cases outcome <;> rfl

theorem drawn_nonceEvents :
    (log.filterMap SeedOutcome.nonceEvent).filterMap NonceEvent.drawn =
      (log.filterMap SeedOutcome.draw).map fun draw => (draw.rawSeed, draw.nonce) := by
  rw [List.filterMap_filterMap, List.map_filterMap]
  apply List.filterMap_congr
  intro outcome _
  cases outcome <;> rfl

theorem drawnBy_nonceEvents (discordId : Int) :
    (log.filterMap SeedOutcome.nonceEvent).filterMap (NonceEvent.drawnBy discordId) =
      (log.filterMap (SeedOutcome.drawOf discordId)).map fun draw => (draw.rawSeed, draw.nonce) := by
  rw [List.filterMap_filterMap, List.map_filterMap]
  apply List.filterMap_congr
  intro outcome _
  cases outcome with
  | drew user draw =>
      change (if user = discordId then _ else _) = Option.map _ (if user = discordId then _ else _)
      split <;> rfl
  | clientSeedSet => rfl
  | rotated => rfl
  | created => rfl

theorem SeedOutcome.not_renews {outcome : SeedOutcome} {discordId : Int}
    (h : ¬ outcome.Rotates discordId) {event : NonceEvent Int Bytes}
    (hevent : outcome.nonceEvent = some event) : ¬ event.Renews discordId := by
  cases outcome <;> cases hevent <;> exact h

theorem not_renews_of_not_rotates {log : List SeedOutcome} {discordId : Int}
    (h : ∀ outcome ∈ log, ¬ outcome.Rotates discordId) :
    ∀ event ∈ log.filterMap SeedOutcome.nonceEvent, ¬ event.Renews discordId := by
  intro event hevent
  obtain ⟨outcome, houtcome, hsome⟩ := List.mem_filterMap.mp hevent
  exact SeedOutcome.not_renews (h outcome houtcome) hsome

end Log

section Explained

variable {crypto : Crypto} {log : List SeedOutcome} {seeds : Int → Option UserSeed}

theorem Takes.replays {discordId : Int} {outcome : SeedOutcome} {row : UserSeed}
    (h : Takes crypto discordId (seeds discordId) outcome row) :
    Replays (seedCells seeds) outcome.nonceEvent.toList
      (seedCells (Function.update seeds discordId (some row))) := by
  have hcells : seedCells (Function.update seeds discordId (some row)) =
      Function.update (seedCells seeds) discordId (some (row.serverSeed, row.nonce)) := by
    funext other
    unfold seedCells
    by_cases hother : other = discordId
    · subst hother
      simp
    · simp [hother]
  rw [hcells]
  generalize hbefore : seeds discordId = before at h
  have hcell : seedCells seeds discordId = before.map fun row => (row.serverSeed, row.nonce) := by
    rw [seedCells, hbefore]
  cases h with
  | drew row hcount => exact .draw hcell (.nil _)
  | clientSeedSet row hmatches =>
      have hsame : Function.update (seedCells seeds) discordId
          (some (row.serverSeed, row.nonce)) = seedCells seeds := by
        rw [Function.update_eq_self_iff, hcell]
        rfl
      change Replays _ [] (Function.update _ _ (some (row.serverSeed, row.nonce)))
      rw [hsame]
      exact .nil _
  | rotated row rotatedBy newSeed =>
      change Replays _ [.renew discordId (some (row.serverSeed, row.nonce)) newSeed] _
      have hold : some (row.serverSeed, row.nonce) = seedCells seeds discordId := hcell.symm
      rw [hold]
      exact .renew (.nil _)
  | created hmatches newSeed =>
      change Replays _ [.renew discordId none newSeed] _
      have hold : none = seedCells seeds discordId := hcell.symm
      rw [hold]
      exact .renew (.nil _)

/-- Explained outcomes are a log of numbered draws. -/
theorem Explains.replays (h : Explains crypto log seeds) :
    Replays (fun _ => none) (log.filterMap SeedOutcome.nonceEvent) (seedCells seeds) := by
  induction h with
  | nil => exact .nil _
  | @concat log seeds discordId outcome row hlog htakes ih =>
      have hconcat : (log ++ [outcome]).filterMap SeedOutcome.nonceEvent =
          log.filterMap SeedOutcome.nonceEvent ++ outcome.nonceEvent.toList := by
        rw [List.filterMap_append]
        cases outcome <;> rfl
      rw [hconcat]
      exact ih.append htakes.replays

/-- What a row of `fairness.user_seeds` satisfies. -/
structure UserSeed.Valid (crypto : Crypto) (row : UserSeed) : Prop where
  hash : row.serverSeedHash = crypto.sha256 row.serverSeed
  clientSeed : MatchesClientSeedRegex row.clientSeed
  nonce_nonneg : 0 ≤ row.nonce

/-- What an outcome leaves behind comes from a valid row. -/
def SeedOutcome.Valid (crypto : Crypto) : SeedOutcome → Prop
  | .drew _ draw =>
      UserSeed.Valid crypto ⟨draw.rawSeed, draw.publicHash, draw.clientSeed, draw.nonce⟩
  | .rotated history _ =>
      UserSeed.Valid crypto ⟨history.revealedServerSeed, history.serverSeedHash,
        history.clientSeed, history.lastNonce⟩
  | .clientSeedSet _ clientSeed => MatchesClientSeedRegex clientSeed
  | .created .. => True

theorem Takes.valid {discordId : Int} {before : Option UserSeed} {outcome : SeedOutcome}
    {row : UserSeed} (h : Takes crypto discordId before outcome row)
    (hbefore : ∀ old, before = some old → old.Valid crypto) :
    row.Valid crypto ∧ outcome.Valid crypto := by
  cases h with
  | drew old hcount =>
      have hold := hbefore old rfl
      have hnonneg := hold.nonce_nonneg
      exact ⟨⟨hold.hash, hold.clientSeed, by dsimp only; omega⟩, hold⟩
  | clientSeedSet old hmatches =>
      have hold := hbefore old rfl
      exact ⟨⟨hold.hash, hmatches, hold.nonce_nonneg⟩, hmatches⟩
  | rotated old rotatedBy newSeed =>
      have hold := hbefore old rfl
      exact ⟨⟨rfl, hold.clientSeed, le_rfl⟩, hold⟩
  | created hmatches newSeed => exact ⟨⟨rfl, hmatches, le_rfl⟩, trivial⟩

theorem Explains.valid (h : Explains crypto log seeds) :
    (∀ discordId row, seeds discordId = some row → row.Valid crypto) ∧
      ∀ outcome ∈ log, outcome.Valid crypto := by
  induction h with
  | nil => exact ⟨by simp, by simp⟩
  | @concat log seeds discordId outcome row hlog htakes ih =>
      obtain ⟨hrow, houtcome⟩ := htakes.valid (ih.1 discordId)
      constructor
      · intro other old hother
        rcases update_eq_some hother with ⟨-, rfl⟩ | ⟨-, hbefore⟩
        · exact hrow
        · exact ih.1 other old hbefore
      · intro other hother
        rcases List.mem_append.mp hother with hearlier | hlast
        · exact ih.2 other hearlier
        · exact List.mem_singleton.mp hlast ▸ houtcome

/-- A row of `fairness.history` has the hash of the seed it reveals. -/
theorem FairnessWorld.Sound.history_hash {τ : Type} {w : FairnessWorld τ} (h : w.Sound crypto)
    {row : FairnessHistory} (hrow : row ∈ w.history) :
    row.serverSeedHash = crypto.sha256 row.revealedServerSeed := by
  rw [h.history, List.mem_filterMap] at hrow
  obtain ⟨outcome, houtcome, hsome⟩ := hrow
  have hvalid := h.explained.valid.2 outcome houtcome
  cases outcome <;> cases hsome
  exact UserSeed.Valid.hash hvalid

end Explained

/-! ## No seed is introduced twice -/

/-- The new seed a transaction has at hand. -/
def SeedWork.newSeed : SeedWork → Option Bytes
  | .archived _ _ vNewSeed => some vNewSeed
  | .rotated row _ => some row.serverSeed
  | .created row => some row.serverSeed
  | .locked .. | .counted .. | .drawn .. | .clientSeedSet .. | .selected .. => none

theorem SeedWork.newSeed_of_finished {discordId : Int} {work : SeedWork} {row : UserSeed}
    {outcome : SeedOutcome} (h : work.finished discordId = some (row, outcome)) :
    outcome.newSeed = work.newSeed := by
  cases work <;> cases h <;> rfl

namespace FairnessWorld

variable {τ : Type}

/-- The new seed that the holder of a user's row is about to introduce. -/
def pendingSeed (w : FairnessWorld τ) (discordId : Int) : Option Bytes :=
  (w.userSeeds discordId).holder.bind fun held => held.2.newSeed

/-- Seeds introduced and about to be introduced are among those generated, and
all different. -/
structure Fresh (seen : List Bytes) (w : FairnessWorld τ) : Prop where
  nodup : (w.log.filterMap SeedOutcome.newSeed).Nodup
  introduced : ∀ seed ∈ w.log.filterMap SeedOutcome.newSeed, seed ∈ seen
  pending : ∀ discordId seed, w.pendingSeed discordId = some seed →
    seed ∈ seen ∧ seed ∉ w.log.filterMap SeedOutcome.newSeed
  injective : ∀ discordId discordId' seed, w.pendingSeed discordId = some seed →
    w.pendingSeed discordId' = some seed → discordId = discordId'

variable {w w' : FairnessWorld τ} {seen : List Bytes} {discordId : Int} {tx : τ}

theorem Fresh.mono (h : w.Fresh seen) (more : List Bytes) : w.Fresh (seen ++ more) :=
  ⟨h.nodup, fun seed hseed => List.mem_append_left _ (h.introduced seed hseed),
    fun user seed hseed => ⟨List.mem_append_left _ (h.pending user seed hseed).1,
      (h.pending user seed hseed).2⟩, h.injective⟩

/-- Statements that bring no new seed keep what is pending, or drop it. -/
theorem Fresh.of_subset (h : w.Fresh seen) (hlog : w'.log = w.log)
    (hpending : ∀ user seed, w'.pendingSeed user = some seed → w.pendingSeed user = some seed) :
    w'.Fresh seen := by
  constructor
  · rw [hlog]
    exact h.nodup
  · rw [hlog]
    exact h.introduced
  · intro user seed hseed
    rw [hlog]
    exact h.pending user seed (hpending user seed hseed)
  · intro user user' seed hseed hseed'
    exact h.injective user user' seed (hpending user seed hseed) (hpending user' seed hseed')

theorem pendingSeed_hold (w : FairnessWorld τ) (tx : τ) (discordId : Int) (work : SeedWork) :
    (w.hold tx discordId work).pendingSeed =
      Function.update w.pendingSeed discordId work.newSeed := by
  funext other
  unfold pendingSeed FairnessWorld.hold
  by_cases hother : other = discordId
  · subst hother
    simp
  · simp [hother]

theorem pendingSeed_publish (w : FairnessWorld τ) (discordId : Int) (row : UserSeed)
    (outcome : SeedOutcome) :
    (w.publish discordId row outcome).pendingSeed =
      Function.update w.pendingSeed discordId none := by
  funext other
  unfold pendingSeed FairnessWorld.publish
  by_cases hother : other = discordId
  · subst hother
    simp
  · simp [hother]

theorem Fresh.hold_none (h : w.Fresh seen) {work : SeedWork} (hwork : work.newSeed = none) :
    (w.hold tx discordId work).Fresh seen := by
  refine h.of_subset rfl fun user seed hseed => ?_
  rw [pendingSeed_hold, hwork, Function.update_apply] at hseed
  split at hseed
  · cases hseed
  · exact hseed

theorem Fresh.hold_new (h : w.Fresh seen) {work : SeedWork} {vNewSeed : Bytes}
    (hwork : work.newSeed = some vNewSeed) (hnew : vNewSeed ∉ seen) :
    (w.hold tx discordId work).Fresh (seen ++ [vNewSeed]) := by
  have hold : ∀ user seed, w.pendingSeed user = some seed → seed ≠ vNewSeed := by
    intro user seed hseed heq
    exact hnew (heq ▸ (h.pending user seed hseed).1)
  refine ⟨h.nodup, fun seed hseed => List.mem_append_left _ (h.introduced seed hseed),
    fun user seed hseed => ?_, fun user user' seed hseed hseed' => ?_⟩
  · rw [pendingSeed_hold, hwork] at hseed
    rcases update_eq_some hseed with ⟨-, rfl⟩ | ⟨-, hbefore⟩
    · exact ⟨List.mem_append_right _ List.mem_cons_self,
        fun hmem => hnew (h.introduced _ hmem)⟩
    · exact (h.mono [vNewSeed]).pending user seed hbefore
  · rw [pendingSeed_hold, hwork] at hseed hseed'
    rcases update_eq_some hseed with ⟨rfl, heq⟩ | ⟨-, hbefore⟩
    · rcases update_eq_some hseed' with ⟨rfl, -⟩ | ⟨-, hbefore'⟩
      · rfl
      · exact absurd heq.symm (hold user' seed hbefore')
    · rcases update_eq_some hseed' with ⟨-, heq⟩ | ⟨-, hbefore'⟩
      · exact absurd heq.symm (hold user seed hbefore)
      · exact h.injective user user' seed hbefore hbefore'

theorem Fresh.publish (h : w.Fresh seen) {row : UserSeed} {outcome : SeedOutcome}
    (hnew : outcome.newSeed = w.pendingSeed discordId) :
    (w.publish discordId row outcome).Fresh seen := by
  have hlog : (w.publish discordId row outcome).log.filterMap SeedOutcome.newSeed =
      w.log.filterMap SeedOutcome.newSeed ++ outcome.newSeed.toList := by
    change (w.log ++ [outcome]).filterMap _ = _
    rw [List.filterMap_append]
    cases outcome <;> rfl
  have hothers : ∀ user seed, (w.publish discordId row outcome).pendingSeed user = some seed →
      user ≠ discordId ∧ w.pendingSeed user = some seed := by
    intro user seed hseed
    rw [pendingSeed_publish, Function.update_apply] at hseed
    split at hseed
    · cases hseed
    next hne => exact ⟨hne, hseed⟩
  refine ⟨?_, ?_, fun user seed hseed => ?_, fun user user' seed hseed hseed' => ?_⟩
  · rw [hlog, List.nodup_append]
    refine ⟨h.nodup, by cases outcome.newSeed <;> simp, fun seed hseed seed' hseed' heq => ?_⟩
    rw [Option.mem_toList, hnew] at hseed'
    exact (h.pending discordId seed' hseed').2 (heq ▸ hseed)
  · intro seed hseed
    rw [hlog, List.mem_append, Option.mem_toList, hnew] at hseed
    rcases hseed with hearlier | hlast
    · exact h.introduced seed hearlier
    · exact (h.pending discordId seed hlast).1
  · obtain ⟨hne, hbefore⟩ := hothers user seed hseed
    refine ⟨(h.pending user seed hbefore).1, fun hmem => ?_⟩
    rw [hlog, List.mem_append, Option.mem_toList, hnew] at hmem
    rcases hmem with hearlier | hlast
    · exact (h.pending user seed hbefore).2 hearlier
    · exact hne (h.injective user discordId seed hbefore hlast)
  · exact h.injective user user' seed (hothers user seed hseed).2 (hothers user' seed hseed').2

variable [DecidableEq τ] {crypto : Crypto}

theorem pendingSeed_of_heldBy {work : SeedWork}
    (hheld : (w.userSeeds discordId).heldBy tx = some work) :
    w.pendingSeed discordId = work.newSeed := by
  unfold RowLock.heldBy at hheld
  unfold pendingSeed
  split at hheld
  next => cases hheld
  next other held hholder =>
    split at hheld
    · rw [hholder, ← Option.some.inj hheld]
      rfl
    · cases hheld

theorem Fresh.hold_same (h : w.Fresh seen) {before work : SeedWork}
    (hheld : (w.userSeeds discordId).heldBy tx = some before)
    (hwork : work.newSeed = before.newSeed) : (w.hold tx discordId work).Fresh seen := by
  refine h.of_subset rfl fun user seed hseed => ?_
  rw [pendingSeed_hold, hwork, ← pendingSeed_of_heldBy hheld, Function.update_eq_self] at hseed
  exact hseed

theorem fresh_step (h : w.Fresh seen) (statement : FairnessStatement τ)
    (hnew : ∀ seed, statement.generated = some seed → seed ∉ seen) :
    (w.step crypto statement).Fresh (seen ++ statement.generated.toList) := by
  cases statement with
  -- only the two inserts hold a new seed; every other statement keeps or drops what is held
  | requestOutcomeBytes tx discordId byteCount =>
      apply Fresh.mono
      simp only [FairnessWorld.step]
      split
      next =>
        split
        next => exact h
        next => exact h.hold_none rfl
      next => exact h
  | nextNonce tx discordId =>
      apply Fresh.mono
      simp only [FairnessWorld.step]
      split
      next => exact h.hold_none rfl
      next => exact h
  | readSeeds tx discordId =>
      apply Fresh.mono
      simp only [FairnessWorld.step]
      split
      next => exact h.hold_none rfl
      next => exact h
  | setClientSeed tx discordId newClientSeed =>
      apply Fresh.mono
      simp only [FairnessWorld.step]
      split
      next =>
        split
        next => exact h.hold_none rfl
        next => exact h
      next => exact h
  | rotateUserSeed tx discordId pRotatedBy =>
      apply Fresh.mono
      simp only [FairnessWorld.step]
      split
      next => exact h.hold_none rfl
      next => exact h
  | insertHistory tx discordId vNewSeed =>
      simp only [FairnessWorld.step]
      split
      next => exact h.hold_new rfl (hnew vNewSeed rfl)
      next => exact h.mono _
  | updateUserSeeds tx discordId =>
      apply Fresh.mono
      simp only [FairnessWorld.step]
      split
      next row history vNewSeed hheld => exact h.hold_same hheld rfl
      next => exact h
  | insertUserSeeds tx discordId vNewSeed clientBytes =>
      simp only [FairnessWorld.step]
      split
      next =>
        split
        next => exact h.hold_new rfl (hnew vNewSeed rfl)
        next => exact h.mono _
      next => exact h.mono _
  -- a commit publishes the seed that was held until now
  | commit tx discordId =>
      apply Fresh.mono
      simp only [FairnessWorld.step]
      split
      next row outcome hfinished =>
        obtain ⟨work, hheld, hwork⟩ := Option.bind_eq_some_iff.mp hfinished
        apply h.publish
        rw [SeedWork.newSeed_of_finished hwork, pendingSeed_of_heldBy hheld]
      next => exact h
  | rollback tx discordId =>
      apply Fresh.mono
      refine h.of_subset rfl fun user seed hseed => ?_
      by_cases huser : user = discordId
      · subst huser
        simp only [pendingSeed, FairnessWorld.step, Function.update_self,
          RowLock.release] at hseed
        split at hseed
        · cases hseed
        · exact hseed
      · simpa [pendingSeed, FairnessWorld.step, huser] using hseed

theorem fresh_run (statements : List (FairnessStatement τ)) (h : w.Fresh seen)
    (hnodup : (seen ++ statements.filterMap FairnessStatement.generated).Nodup) :
    (run (FairnessWorld.step crypto) w statements).Fresh
      (seen ++ statements.filterMap FairnessStatement.generated) := by
  induction statements generalizing w seen with
  | nil => simpa using h
  | cons statement rest ih =>
      have hcons : seen ++ (statement :: rest).filterMap FairnessStatement.generated =
          seen ++ statement.generated.toList ++ rest.filterMap FairnessStatement.generated := by
        rw [List.append_assoc, List.filterMap_cons]
        cases statement.generated <;> rfl
      rw [hcons] at hnodup ⊢
      refine ih (fresh_step h statement fun seed hseed hmem => ?_) hnodup
      have hseen := (List.nodup_append.mp (List.nodup_append.mp hnodup).1).2.2
      exact hseen seed hmem seed (by rw [hseed]; exact List.mem_singleton_self seed) rfl

theorem log_prefix_step (w : FairnessWorld τ) (statement : FairnessStatement τ) :
    w.log <+: (w.step crypto statement).log := by
  cases statement with
  | commit tx discordId =>
      simp only [FairnessWorld.step]
      split
      next row outcome _ => exact List.prefix_append _ _
      next => exact List.prefix_rfl
  | requestOutcomeBytes | setClientSeed | insertUserSeeds =>
      simp only [FairnessWorld.step]
      split
      · split <;> exact List.prefix_rfl
      · exact List.prefix_rfl
  | nextNonce | readSeeds | rotateUserSeed | insertHistory | updateUserSeeds =>
      simp only [FairnessWorld.step]
      split <;> exact List.prefix_rfl
  | rollback tx discordId => exact List.prefix_rfl

/-- What has been committed stays in the log. -/
theorem log_prefix_run (w : FairnessWorld τ) (statements : List (FairnessStatement τ)) :
    w.log <+: (run (FairnessWorld.step crypto) w statements).log := by
  induction statements generalizing w with
  | nil => exact List.prefix_rfl
  | cons statement rest ih => exact (log_prefix_step w statement).trans (ih _)

/-! ## Runs in which no random value repeats -/

section Run

variable {statements : List (FairnessStatement τ)}

omit [DecidableEq τ] in
theorem fresh_empty : (FairnessWorld.empty : FairnessWorld τ).Fresh [] :=
  ⟨List.nodup_nil, by simp [FairnessWorld.empty], by simp [pendingSeed, FairnessWorld.empty],
    by simp [pendingSeed, FairnessWorld.empty]⟩

variable (hfresh : (statements.filterMap FairnessStatement.generated).Nodup)
include hfresh

theorem run_fresh :
    (run (FairnessWorld.step crypto) .empty statements).Fresh
      (statements.filterMap FairnessStatement.generated) := by
  have hrun := @fresh_run _ _ _ _ crypto statements fresh_empty (by simpa using hfresh)
  simpa using hrun

theorem run_separate :
    Replays.Separate (fun _ => none)
      ((run (FairnessWorld.step crypto) .empty statements).log.filterMap
        SeedOutcome.nonceEvent) := by
  refine ⟨?_, by simp, by simp⟩
  rw [introduced_nonceEvents]
  exact (run_fresh hfresh).nodup

/-- No seed is revealed twice. -/
theorem revealed_nodup :
    ((run (FairnessWorld.step crypto) .empty statements).history.map
      FairnessHistory.revealedServerSeed).Nodup := by
  have hsound := @sound_run _ crypto _ statements
  rw [hsound.history, ← retired_nonceEvents]
  exact hsound.explained.replays.retired_nodup (run_separate hfresh)

/-- A revealed seed has been generated. -/
theorem revealed_generated {row : FairnessHistory}
    (hrow : row ∈ (run (FairnessWorld.step crypto) .empty statements).history) :
    row.revealedServerSeed ∈ statements.filterMap FairnessStatement.generated := by
  have hsound := @sound_run _ crypto _ statements
  have hretired : row.revealedServerSeed ∈
      ((run (FairnessWorld.step crypto) .empty statements).log.filterMap
        SeedOutcome.nonceEvent).filterMap NonceEvent.retired := by
    rw [retired_nonceEvents, ← hsound.history]
    exact List.mem_map_of_mem hrow
  rcases hsound.explained.replays.mem_retired hretired with ⟨_, _, hnone⟩ | hintroduced
  · cases hnone
  · rw [introduced_nonceEvents] at hintroduced
    exact (run_fresh hfresh).introduced _ hintroduced

end Run

end FairnessWorld

/-! ## Every ticket can be verified -/

/-- The row of `fairness.history` that a ticket is verified against: the only one
with its hash, revealing the seed that the hash commits to, from which the bytes
of the ticket follow. -/
structure TicketVerified (crypto : Crypto) (history : List FairnessHistory) (byteCount : Int)
    (ticket : FairnessTicket) (row : FairnessHistory) : Prop where
  only_row : history.filter (fun other => other.serverSeedHash = ticket.serverSeedHash) = [row]
  commitment : crypto.sha256 row.revealedServerSeed = ticket.serverSeedHash
  bytes : extend crypto (compute crypto row.revealedServerSeed ticket.clientSeed ticket.nonce)
    byteCount.toNat = some ticket.hmacBytes
  nonce_nonneg : 0 ≤ ticket.nonce
  nonce_lt : ticket.nonce < row.lastNonce

/-- An entry that only itself agrees with in a list without repetitions. -/
theorem filter_eq_singleton {α β : Type*} {key : α → β} {p : α → Bool} {before after : List α}
    {a : α} (hnodup : ((before ++ a :: after).map key).Nodup) (ha : p a)
    (hp : ∀ b ∈ before ++ a :: after, p b → key b = key a) :
    (before ++ a :: after).filter p = [a] := by
  rw [List.map_append, List.map_cons, List.nodup_append, List.nodup_cons] at hnodup
  have hbefore : before.filter p = [] := by
    rw [List.filter_eq_nil_iff]
    intro b hb hpb
    have hkey := hp b (List.mem_append_left _ hb) hpb
    exact hnodup.2.2 _ (List.mem_map_of_mem hb) _ List.mem_cons_self hkey
  have hafter : after.filter p = [] := by
    rw [List.filter_eq_nil_iff]
    intro b hb hpb
    have hkey := hp b (List.mem_append_right _ (List.mem_cons_of_mem _ hb)) hpb
    exact hnodup.2.1.1 (hkey ▸ List.mem_map_of_mem hb)
  rw [List.filter_append, List.filter_cons_of_pos ha, hbefore, hafter]
  rfl

/-- The two digests of the first two seeds below and the one HMAC drawn under the first. -/
def sampleCrypto : Crypto where
  sha256 input :=
    if input = List.replicate 32 1 then
      [114, 205, 110, 132, 34, 196, 7, 251, 109, 9, 134, 144, 241, 19, 11, 125, 237, 126, 194, 247,
        245, 225, 211, 11, 217, 213, 33, 240, 21, 54, 55, 147]
    else if input = List.replicate 32 2 then
      [117, 135, 123, 180, 29, 57, 59, 95, 184, 69, 92, 230, 14, 205, 141, 218, 0, 29, 6, 49, 100,
        150, 177, 77, 250, 127, 137, 86, 86, 238, 202, 74]
    else []
  hmacSha512 key message :=
    if key = List.replicate 32 1 ∧ message = encodeUtf8 "0001020304050607:0" then
      [35, 109, 43, 137, 52, 86, 235, 40, 207, 198, 122, 192, 31, 142, 195, 197, 252, 84, 217, 93,
        154, 243, 5, 2, 125, 93, 184, 113, 49, 141, 224, 126, 212, 164, 221, 144, 150, 144, 101,
        157, 66, 229, 203, 43, 180, 98, 14, 24, 99, 242, 58, 3, 134, 80, 112, 222, 51, 219, 200,
        228, 125, 3, 74, 79]
    else []

/-- A first seed, a draw of four bytes, and a rotation that has to wait for it. -/
def sampleSeedRun : List (FairnessStatement Nat) :=
  [.insertUserSeeds 1 7 (List.replicate 32 1) [0, 1, 2, 3, 4, 5, 6, 7], .commit 1 7,
    .requestOutcomeBytes 2 7 4, .nextNonce 2 7, .rotateUserSeed 3 7 "user", .readSeeds 2 7,
    .commit 2 7, .rotateUserSeed 3 7 "user", .insertHistory 3 7 (List.replicate 32 2),
    .updateUserSeeds 3 7, .commit 3 7]

def sampleDraw : Draw :=
  ⟨4, List.replicate 32 1, sampleCrypto.sha256 (List.replicate 32 1), "0001020304050607", 0⟩

def sampleHistory : FairnessHistory :=
  ⟨7, List.replicate 32 1, sampleCrypto.sha256 (List.replicate 32 1), "0001020304050607", 1, .user⟩

theorem sampleSeedRun_log :
    (run (FairnessWorld.step sampleCrypto) .empty sampleSeedRun).log =
      [.created 7 (List.replicate 32 1), .drew 7 sampleDraw,
        .rotated sampleHistory (List.replicate 32 2)] := by
  decide

theorem sampleSeedRun_fresh :
    (sampleSeedRun.filterMap FairnessStatement.generated).Nodup := by
  decide

theorem sampleSeedRun_injOn :
    Set.InjOn sampleCrypto.sha256
      {seed | seed ∈ sampleSeedRun.filterMap FairnessStatement.generated} := by
  have hinjective : ∀ a ∈ sampleSeedRun.filterMap FairnessStatement.generated,
      ∀ b ∈ sampleSeedRun.filterMap FairnessStatement.generated,
        sampleCrypto.sha256 a = sampleCrypto.sha256 b → a = b := by
    decide
  exact fun a ha b hb => hinjective a ha b hb

section Verifiable

variable {τ : Type} [DecidableEq τ] {crypto : Crypto} {statements : List (FairnessStatement τ)}
  {before between after : List SeedOutcome} {discordId : Int}

/-- A draw and the next rotation of its user: the rotation reveals the seed drawn
from, with a larger nonce. -/
theorem next_rotation_reveals {draw : Draw} {rotation : SeedOutcome}
    (hlog : (run (FairnessWorld.step crypto) .empty statements).log =
      before ++ .drew discordId draw :: (between ++ rotation :: after))
    (hrotation : rotation.Rotates discordId)
    (hnext : ∀ outcome ∈ between, ¬ outcome.Rotates discordId) :
    ∃ row newSeed, rotation = .rotated row newSeed ∧ row.discordId = discordId ∧
      row.revealedServerSeed = draw.rawSeed ∧ draw.nonce < row.lastNonce := by
  have hreplays := (@FairnessWorld.sound_run _ crypto _ statements).explained.replays
  simp only [hlog, List.filterMap_append, List.filterMap_cons] at hreplays
  cases rotation with
  | drew => exact hrotation.elim
  | clientSeedSet => exact hrotation.elim
  | created user newSeed =>
      cases hrotation
      have huntil := hreplays.until_renewed (not_renews_of_not_rotates hnext)
      obtain ⟨_, hnone, -⟩ := huntil
      cases hnone
  | rotated row newSeed =>
      cases hrotation
      have huntil := hreplays.until_renewed (not_renews_of_not_rotates hnext)
      obtain ⟨counter, hretired, hlt⟩ := huntil
      rw [Option.some.injEq, Prod.mk.injEq] at hretired
      exact ⟨row, newSeed, rfl, rfl, hretired.1, hretired.2 ▸ hlt⟩

/-- Whatever the interleaving, the next rotation of a user reveals what verifies
a ticket drawn before it, and nothing revealed earlier gave its seed away. -/
theorem tickets_verifiable
    (hfresh : (statements.filterMap FairnessStatement.generated).Nodup)
    (hsha256 : Set.InjOn crypto.sha256
      {seed | seed ∈ statements.filterMap FairnessStatement.generated})
    {draw : Draw} {rotation : SeedOutcome} {ticket : FairnessTicket}
    (hlog : (run (FairnessWorld.step crypto) .empty statements).log =
      before ++ .drew discordId draw :: (between ++ rotation :: after))
    (hticket : draw.ticket crypto = some ticket)
    (hrotation : rotation.Rotates discordId)
    (hnext : ∀ outcome ∈ between, ¬ outcome.Rotates discordId) :
    ∃ row newSeed, rotation = .rotated row newSeed ∧ row.discordId = discordId ∧
      TicketVerified crypto (run (FairnessWorld.step crypto) .empty statements).history
        draw.byteCount ticket row ∧
      ∀ first rest, statements = first ++ rest →
        (run (FairnessWorld.step crypto) .empty first).log.length ≤
          before.length + 1 + between.length →
        ∀ earlier ∈ (run (FairnessWorld.step crypto) .empty first).history,
          earlier.revealedServerSeed ≠ row.revealedServerSeed := by
  obtain ⟨row, newSeed, rfl, huser, hseed, hnonce⟩ := next_rotation_reveals hlog hrotation hnext
  have hsound := @FairnessWorld.sound_run _ crypto _ statements
  have hvalid := hsound.explained.valid.2
  have hrevealed := @FairnessWorld.revealed_nodup _ _ crypto _ hfresh
  -- the ticket carries what the draw has read
  have hdraw : UserSeed.Valid crypto
      ⟨draw.rawSeed, draw.publicHash, draw.clientSeed, draw.nonce⟩ :=
    hvalid (.drew discordId draw) (by rw [hlog]; simp)
  obtain ⟨bytes, hbytes, hreturned⟩ := Option.bind_eq_some_iff.mp hticket
  cases hreturned
  -- the history splits at the row
  generalize hhistory : (run (FairnessWorld.step crypto) .empty statements).history = history
    at hrevealed ⊢
  let earlier := (before ++ .drew discordId draw :: between).filterMap SeedOutcome.history
  let later := after.filterMap SeedOutcome.history
  have hsplit : history = earlier ++ row :: later := by
    rw [← hhistory, hsound.history, hlog]
    simp [earlier, later, List.filterMap_cons, SeedOutcome.history]
  have hrowmem : row ∈ (run (FairnessWorld.step crypto) .empty statements).history := by
    rw [hhistory, hsplit]
    exact List.mem_append_right _ List.mem_cons_self
  refine ⟨row, newSeed, rfl, huser, ⟨?_, ?_, ?_, hdraw.nonce_nonneg, hnonce⟩, ?_⟩
  · rw [hsplit] at hrevealed ⊢
    apply filter_eq_singleton hrevealed
    · rw [decide_eq_true_eq, hsound.history_hash hrowmem, hseed]
      exact hdraw.hash.symm
    · -- two rows with the hash of the ticket reveal two generated seeds of one hash
      intro other hother heq
      rw [decide_eq_true_eq] at heq
      have hmem : other ∈ (run (FairnessWorld.step crypto) .empty statements).history := by
        rw [hhistory, hsplit]
        exact hother
      apply hsha256 (FairnessWorld.revealed_generated hfresh hmem)
        (FairnessWorld.revealed_generated hfresh hrowmem)
      rw [← hsound.history_hash hmem, hseed, heq]
      exact hdraw.hash
  · rw [hseed]
    exact hdraw.hash.symm
  · rw [hseed]
    exact hbytes
  · -- before the rotation, the history is within `earlier`
    rintro first rest rfl hlength revealed hmem heq
    have hinitial := @FairnessWorld.log_prefix_run _ _ crypto
      (run (FairnessWorld.step crypto) .empty first) rest
    rw [← run_append, hlog, ← List.cons_append, ← List.append_assoc] at hinitial
    have hlogs := List.prefix_of_prefix_length_le hinitial (List.prefix_append _ _)
      (by rw [List.length_append, List.length_cons]; omega)
    have hearlier : revealed ∈ earlier := by
      rw [(@FairnessWorld.sound_run _ crypto _ first).history] at hmem
      exact (hlogs.filterMap _).subset hmem
    rw [hsplit, List.map_append, List.nodup_append] at hrevealed
    exact hrevealed.2.2 _ (List.mem_map_of_mem hearlier) _ List.mem_cons_self heq

theorem tickets_verifiable_run :
    ∃ row newSeed, SeedOutcome.rotated sampleHistory (List.replicate 32 2) =
        .rotated row newSeed ∧ row.discordId = 7 ∧
      TicketVerified sampleCrypto
        (run (FairnessWorld.step sampleCrypto) .empty sampleSeedRun).history 4
        ⟨[35, 109, 43, 137], sampleDraw.publicHash, "0001020304050607", 0⟩ row ∧
      ∀ first rest, sampleSeedRun = first ++ rest →
        (run (FairnessWorld.step sampleCrypto) .empty first).log.length ≤ 1 + 1 + 0 →
        ∀ earlier ∈ (run (FairnessWorld.step sampleCrypto) .empty first).history,
          earlier.revealedServerSeed ≠ row.revealedServerSeed := by
  have hlog : (run (FairnessWorld.step sampleCrypto) .empty sampleSeedRun).log =
      [.created 7 (List.replicate 32 1)] ++
        .drew 7 sampleDraw :: ([] ++ .rotated sampleHistory (List.replicate 32 2) :: []) :=
    sampleSeedRun_log
  have hticket : sampleDraw.ticket sampleCrypto =
      some ⟨[35, 109, 43, 137], sampleDraw.publicHash, "0001020304050607", 0⟩ := by
    decide
  exact tickets_verifiable sampleSeedRun_fresh sampleSeedRun_injOn hlog hticket rfl (by simp)

/-! ## No randomness is reused -/

/-- The draws of a user between two rotations have the nonces from zero up to the
one that the second rotation archives. -/
theorem nonces_between {first rotation : SeedOutcome}
    (hlog : (run (FairnessWorld.step crypto) .empty statements).log =
      before ++ first :: (between ++ rotation :: after))
    (hfirst : first.Rotates discordId) (hrotation : rotation.Rotates discordId)
    (hnext : ∀ outcome ∈ between, ¬ outcome.Rotates discordId) :
    ∃ row newSeed, ∃ n : ℕ, rotation = .rotated row newSeed ∧ row.lastNonce = (n : Int) ∧
      (between.filterMap (SeedOutcome.drawOf discordId)).map Draw.nonce =
        (List.range n).map fun k : ℕ => (k : Int) := by
  have hreplays := (@FairnessWorld.sound_run _ crypto _ statements).explained.replays
  have hstarts : ∃ old key, first.nonceEvent = some (.renew discordId old key) := by
    cases first with
    | drew => exact hfirst.elim
    | clientSeedSet => exact hfirst.elim
    | created user key => exact ⟨_, _, by rw [← (hfirst : user = discordId)]; rfl⟩
    | rotated row key => exact ⟨_, _, by rw [← (hfirst : row.discordId = discordId)]; rfl⟩
  obtain ⟨old, key, hstart⟩ := hstarts
  simp only [hlog, List.filterMap_append, List.filterMap_cons, hstart] at hreplays
  cases rotation with
  | drew => exact hrotation.elim
  | clientSeedSet => exact hrotation.elim
  | created user newSeed =>
      cases hrotation
      obtain ⟨_, hnone, -⟩ := hreplays.between (not_renews_of_not_rotates hnext)
      cases hnone
  | rotated row newSeed =>
      cases hrotation
      obtain ⟨n, hretired, hdraws⟩ := hreplays.between (not_renews_of_not_rotates hnext)
      rw [Option.some.injEq, Prod.mk.injEq] at hretired
      refine ⟨row, newSeed, n, rfl, hretired.2, ?_⟩
      rw [drawnBy_nonceEvents] at hdraws
      have hnonces := congrArg (List.map Prod.snd) hdraws
      rwa [List.map_map, List.map_map] at hnonces

/-- The key and message under which a draw evaluates the HMAC. -/
def Draw.hmacInput (draw : Draw) : Bytes × Bytes :=
  (draw.rawSeed, encodeUtf8 (fairnessMessage draw.clientSeed draw.nonce))

/-- Different numbers under a seed are different messages, whatever client seeds
they come with. -/
theorem hmacInputs_nodup {draws : List Draw}
    (hvalid : ∀ draw ∈ draws, MatchesClientSeedRegex draw.clientSeed)
    (hnodup : (draws.map fun draw => (draw.rawSeed, draw.nonce)).Nodup) :
    (draws.map Draw.hmacInput).Nodup := by
  rw [List.Nodup, List.pairwise_map] at hnodup ⊢
  apply hnodup.imp_of_mem
  intro draw draw' hdraw hdraw' hne heq
  obtain ⟨hseed, hmessage⟩ := Prod.mk.inj heq
  have hnonce := (fairnessMessage_injective (hvalid draw hdraw) (hvalid draw' hdraw') hmessage).2
  exact hne (by rw [hseed, hnonce])

/-- Whatever the interleaving, no nonce is skipped or repeated between two
rotations, the message determines client seed and nonce for every client seed
that is stored, and no two draws evaluate the HMAC on the same input. -/
theorem randomness_not_reused (crypto : Crypto) (statements : List (FairnessStatement τ))
    (hfresh : (statements.filterMap FairnessStatement.generated).Nodup) :
    (∀ before between after discordId first rotation,
      (run (FairnessWorld.step crypto) .empty statements).log =
        before ++ first :: (between ++ rotation :: after) →
      first.Rotates discordId → rotation.Rotates discordId →
      (∀ outcome ∈ between, ¬ outcome.Rotates discordId) →
      ∃ row newSeed, ∃ n : ℕ, rotation = .rotated row newSeed ∧ row.lastNonce = (n : Int) ∧
        (between.filterMap (SeedOutcome.drawOf discordId)).map Draw.nonce =
          (List.range n).map fun k : ℕ => (k : Int)) ∧
      (∀ discordId row,
        (run (FairnessWorld.step crypto) .empty statements).committed discordId = some row →
        MatchesClientSeedRegex row.clientSeed) ∧
      (∀ clientSeed clientSeed' nonce nonce', MatchesClientSeedRegex clientSeed →
        MatchesClientSeedRegex clientSeed' →
        encodeUtf8 (fairnessMessage clientSeed nonce) =
          encodeUtf8 (fairnessMessage clientSeed' nonce') →
        clientSeed = clientSeed' ∧ nonce = nonce') ∧
      (((run (FairnessWorld.step crypto) .empty statements).log.filterMap SeedOutcome.draw).map
        Draw.hmacInput).Nodup := by
  have hsound := @FairnessWorld.sound_run _ crypto _ statements
  refine ⟨?_, ?_, ?_, ?_⟩
  · intro before between after discordId first rotation hlog hfirst hrotation hnext
    exact nonces_between hlog hfirst hrotation hnext
  · intro discordId row hrow
    exact (hsound.explained.valid.1 discordId row hrow).clientSeed
  · intro clientSeed clientSeed' nonce nonce' hseed hseed' hmessage
    exact fairnessMessage_injective hseed hseed' hmessage
  · apply hmacInputs_nodup
    · intro draw hdraw
      obtain ⟨outcome, houtcome, hsome⟩ := List.mem_filterMap.mp hdraw
      have hvalid := hsound.explained.valid.2 outcome houtcome
      cases outcome <;> cases hsome
      exact UserSeed.Valid.clientSeed hvalid
    · rw [← drawn_nonceEvents]
      exact hsound.explained.replays.drawn_nodup (FairnessWorld.run_separate hfresh)

theorem randomness_not_reused_run :
    ((run (FairnessWorld.step sampleCrypto) .empty sampleSeedRun).log.filterMap
      SeedOutcome.draw).map Draw.nonce = [0] ∧
    (((run (FairnessWorld.step sampleCrypto) .empty sampleSeedRun).log.filterMap
      SeedOutcome.draw).map Draw.hmacInput).Nodup :=
  ⟨by decide, (randomness_not_reused sampleCrypto sampleSeedRun sampleSeedRun_fresh).2.2.2⟩

end Verifiable

end DeathRoll
