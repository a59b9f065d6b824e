import DeathRoll.Ledger.AuditTargets
import DeathRoll.Relational.SoftDelete

/-! # The cashiers' characters

`dw.add_cashier_character` and `dw.remove_cashier_character` keep a map in rows that are
marked and revived. The faction is not part of a row's key, and the revival does not
write it.
-/

namespace DeathRoll

open Relational Tx

/-- A call of one of the two functions, `none` for `NULL`. -/
inductive RegistryCall where
  | add (discordId : Option Int) (char realm region faction : Option String)
  | remove (discordId : Option Int) (char realm region : Option String)

def RegistryCall.call : RegistryCall → Call
  | .add d c r g f => .addCashierCharacter d c r g f
  | .remove d c r g => .removeCashierCharacter d c r g

/-- The key that four arguments name. -/
def characterKey? (discordId : Option Int) (char realm region : Option String) :
    Option CharacterKey := do
  return {
    discordId := ← discordId, charName := ← char, realm := ← realm,
    region := ← Region.ofText (← region) }

/-- What the call is to the map from keys to factions. -/
def RegistryCall.mapCall? : RegistryCall → Option (MapCall CharacterKey Faction)
  | .add d c r g f => do return .put (← characterKey? d c r g) (← Faction.ofText (← f))
  | .remove d c r g => do return .drop (← characterKey? d c r g)

/-- One call by some session. -/
def registryStep (s : Database) (call : Env × RegistryCall) : Database :=
  step s (.call call.1 call.2.call)

/-- The calls that succeed in a run. -/
def succeeded (s : Database) (calls : List (Env × RegistryCall)) :
    List (MapCall CharacterKey Faction) :=
  (steps registryStep s calls).filterMap fun trial =>
    if trial.2.2.call.Succeeds trial.2.1 trial.1 then trial.2.2.mapCall? else none

/-- The rows with their mark and their faction. -/
def Database.characterRows (s : Database) (key : CharacterKey) : Option (MarkedRow Faction) :=
  (s.cashierCharacters.get? key).map fun row => ⟨row.faction, row.isActive⟩

/-- The active rows are the map, and whatever it has can be removed. -/
structure Database.RegistryIs (s : Database) (m : CharacterKey → Option Faction) : Prop where
  active : activeRows s.characterRows = m
  removes : ∀ env discordId char realm region, (∃ key, env.chainKey = .ok key) →
    ((Call.removeCashierCharacter discordId char realm region).Succeeds env s ↔
      ∃ key, characterKey? discordId char realm region = some key ∧ m key ≠ none)

variable {env : Env} {s s' s₀ : Database} {d : Option Int} {c r g f : Option String}

/-! ## The two functions -/

/-- What the audit row leaves alone. -/
def Database.registry (s : Database) := (s.cashierCharacters, s.users)

theorem auditLogInsert_keepsRegistry {p : AuditParams} :
    (auditLogInsertWithChain env p).Keeps Database.registry := by
  intro s
  simp only [wp_auditLogInsertWithChain, implies_true, true_and]
  intros
  rfl

theorem activeCharacter?_eq_some {g : Option String} {found : CharacterKey × CashierCharacter} :
    s.activeCharacter? d c r g = some found ↔
      characterKey? d c r g = some found.1 ∧ s.cashierCharacters.get? found.1 = some found.2 ∧
        found.2.isActive = true := by
  simp only [Database.activeCharacter?, characterKey?, Option.bind_eq_bind,
    Option.bind_eq_some_iff, Option.pure_def, Option.some.injEq]
  constructor
  · rintro ⟨discordId, rfl, char, rfl, realm, rfl, text, rfl, region, hregion, row, hrow, hactive⟩
    split_ifs at hactive with hon
    obtain rfl := Option.some.inj hactive
    exact ⟨⟨discordId, rfl, char, rfl, realm, rfl, text, rfl, region, hregion, rfl⟩, hrow, hon⟩
  · rintro ⟨⟨discordId, rfl, char, rfl, realm, rfl, text, rfl, region, hregion, hkey⟩, hrow, hon⟩
    refine ⟨discordId, rfl, char, rfl, realm, rfl, text, rfl, region, hregion, found.2, ?_, ?_⟩
    · rw [hkey, hrow]
    · rw [if_pos hon, hkey]

/-- An add puts the key: it revives the row under the key, or inserts one. -/
theorem addCashierCharacter_puts :
    wp (callBody env (.addCashierCharacter d c r g f))
      (fun _ s' => ∃ key faction, (RegistryCall.add d c r g f).mapCall? = some (.put key faction) ∧
        s'.characterRows = MapCall.mark s.characterRows (.put key faction) ∧ s'.users = s.users)
      (fun _ => True) s := by
  unfold callBody addCashierCharacter
  simp only [wp_bind, wp_get, wp_set, wp_pure, wp_raiseIf, wp_notNull, wp_checkedText, wp_nextval,
    implies_true, true_and]
  rintro - - discordId rfl char rfl realm rfl regionText rfl region hregion factionText rfl
    faction hfaction
  refine wp_of_keeps auditLogInsert_keepsRegistry fun _ s₁ h₁ => ?_
  have hcharacters := congrArg Prod.fst h₁
  refine ⟨⟨discordId, char, realm, region⟩, faction, ?_, ?_, congrArg Prod.snd h₁⟩
  · simp [RegistryCall.mapCall?, characterKey?, hregion, hfaction]
  · funext other
    have hrow : s₁.cashierCharacters.get? other = _ :=
      (congrArg (Table.get? · other) hcharacters).trans (upsert_get? s.cashierCharacters _ other _)
    rw [Database.characterRows, hrow, MapCall.mark]
    by_cases heq : other = ⟨discordId, char, realm, region⟩
    · rw [if_pos heq, heq, Function.update_self]
      simp only [Database.advance, Database.characterRows]
      cases s.cashierCharacters.get? ⟨discordId, char, realm, region⟩ <;> rfl
    · rw [if_neg heq, Function.update_of_ne heq]
      rfl

/-- A remove drops the key. -/
theorem removeCashierCharacter_drops {g : Option String} :
    wp (removeCashierCharacter env d c r g)
      (fun _ s' => ∃ key, (RegistryCall.remove d c r g).mapCall? = some (.drop key) ∧
        s'.characterRows = MapCall.mark s.characterRows (.drop key) ∧ s'.users = s.users)
      (fun _ => True) s := by
  unfold removeCashierCharacter
  simp only [wp_bind, wp_get, wp_set, wp_pure, wp_require, implies_true, true_and]
  rintro ⟨key, row⟩ hfound
  obtain ⟨hkey, hold, -⟩ := activeCharacter?_eq_some.mp hfound
  refine wp_of_keeps auditLogInsert_keepsRegistry fun _ s₁ h₁ => ?_
  refine ⟨key, by simp [RegistryCall.mapCall?, hkey], ?_, congrArg Prod.snd h₁⟩
  funext other
  have hrow : s₁.cashierCharacters.get? other = _ :=
    (congrArg (Table.get? · other) (congrArg Prod.fst h₁)).trans
      (Table.get?_set s.cashierCharacters key other _)
  rw [Database.characterRows, hrow, MapCall.mark]
  by_cases heq : other = key
  · subst heq
    rw [if_pos rfl, Function.update_self, Database.characterRows, hold]
    rfl
  · rw [if_neg heq, Function.update_of_ne heq]
    rfl

/-- A remove returns where the key is active. -/
theorem removeCashierCharacter_returns_iff (huser : s.HasUser 0) {key : Bytes}
    (hkey : env.chainKey = .ok key) {g : Option String} :
    (Call.removeCashierCharacter d c r g).Succeeds env s ↔
      ∃ key, characterKey? d c r g = some key ∧ activeRows s.characterRows key ≠ none := by
  have hactive : (∃ key, characterKey? d c r g = some key ∧
      activeRows s.characterRows key ≠ none) ↔ s.activeCharacter? d c r g ≠ none := by
    rw [Option.ne_none_iff_exists']
    constructor
    · rintro ⟨key, hnamed, hrow⟩
      obtain ⟨faction, hfaction⟩ := Option.ne_none_iff_exists'.mp hrow
      obtain ⟨marked, hmarked, hon⟩ := Option.bind_eq_some_iff.mp hfaction
      obtain ⟨row, hget, rfl⟩ := Option.map_eq_some_iff.mp hmarked
      split_ifs at hon with hactive
      exact ⟨(key, row), activeCharacter?_eq_some.mpr ⟨hnamed, hget, hactive⟩⟩
    · rintro ⟨found, hfound⟩
      obtain ⟨hnamed, hget, hon⟩ := activeCharacter?_eq_some.mp hfound
      exact ⟨found.1, hnamed, by simp [activeRows, Database.characterRows, hget, hon]⟩
  rw [hactive]
  constructor
  · intro hok hnone
    have hwp : wp (callBody env (.removeCashierCharacter d c r g)) (fun _ _ => False)
        (fun _ => True) s := by
      simp only [callBody, removeCashierCharacter, wp_bind, wp_get, wp_require, implies_true,
        true_and]
      intro found hfound
      rw [hnone] at hfound
      cases hfound
    exact post_of_outcome hwp (transact_ok Database.rollback (Prod.ext hok rfl))
  · intro hsome
    apply succeeds_of_wp
    simp only [callBody, removeCashierCharacter, wp_bind, wp_get, wp_set, wp_require, wp_pure]
    refine ⟨fun hnone => absurd hnone hsome, fun found hfound => ?_⟩
    obtain ⟨hnamed, -, -⟩ := activeCharacter?_eq_some.mp hfound
    obtain ⟨discordId, rfl⟩ : ∃ discordId, d = some discordId := by
      cases d with
      | none => cases hnamed
      | some discordId => exact ⟨discordId, rfl⟩
    have htarget : s.users.get? (s.registeredOr0 (some discordId)) ≠ none :=
      hasUser_registeredOr0 huser _
    simp [wp_auditLogInsertWithChain, hkey, htarget]

/-! ## Runs -/

/-- A call marks the rows as its map call says when it succeeds, and else leaves them. -/
theorem registryStep_rows (s : Database) (call : Env × RegistryCall) :
    (registryStep s call).users = s.users ∧
      (registryStep s call).characterRows =
        run MapCall.mark s.characterRows (succeeded s [call]) := by
  obtain ⟨env, call⟩ := call
  by_cases hok : call.call.Succeeds env s
  · have hcommitted := transact_ok Database.rollback
      (Prod.ext (hok : (call.call.exec env s).1 = .ok ()) rfl)
    cases call with
    | add d c r g f =>
        obtain ⟨key, faction, hcall, hrows, husers⟩ :=
          post_of_outcome addCashierCharacter_puts hcommitted
        refine ⟨husers, ?_⟩
        simp only [succeeded, steps_cons, steps_nil, List.filterMap_cons, List.filterMap_nil,
          if_pos hok, hcall, run_cons, run_nil]
        exact hrows
    | remove d c r g =>
        obtain ⟨key, hcall, hrows, husers⟩ :=
          post_of_outcome removeCashierCharacter_drops hcommitted
        refine ⟨husers, ?_⟩
        simp only [succeeded, steps_cons, steps_nil, List.filterMap_cons, List.filterMap_nil,
          if_pos hok, hcall, run_cons, run_nil]
        exact hrows
  · obtain ⟨atError, heq⟩ := step_of_fails hok
    have hkept : registryStep s (env, call) = s.rollback atError := heq
    rw [hkept]
    refine ⟨rfl, ?_⟩
    simp only [succeeded, steps_cons, steps_nil, List.filterMap_cons, List.filterMap_nil,
      if_neg hok, run_nil]
    rfl

theorem succeeded_cons (s : Database) (call : Env × RegistryCall)
    (rest : List (Env × RegistryCall)) :
    succeeded s (call :: rest) = succeeded s [call] ++ succeeded (registryStep s call) rest := by
  simp only [succeeded, steps_cons, steps_nil]
  exact List.filterMap_append (l := [_])

/-- The rows after a run are marked by the calls that succeeded. -/
theorem run_registryStep_rows (s : Database) (calls : List (Env × RegistryCall)) :
    (run registryStep s calls).users = s.users ∧
      (run registryStep s calls).characterRows =
        run MapCall.mark s.characterRows (succeeded s calls) := by
  induction calls generalizing s with
  | nil => exact ⟨rfl, rfl⟩
  | cons call rest ih =>
      obtain ⟨husers, hrows⟩ := registryStep_rows s call
      obtain ⟨husersRest, hrowsRest⟩ := ih (registryStep s call)
      rw [run_cons, succeeded_cons, run_append, ← hrows]
      exact ⟨husersRest.trans husers, hrowsRest⟩

/-- After any calls the registry is the map that the successful ones fold to, unless the
last add of a key that is present gives another faction than the first. -/
theorem registry_folds_iff (hempty : s₀.cashierCharacters = .empty) (htreasury : s₀.HasUser 0)
    (calls : List (Env × RegistryCall)) :
    (run registryStep s₀ calls).RegistryIs (folded (succeeded s₀ calls)) ↔
      ∀ key faction, folded (succeeded s₀ calls) key = some faction →
        firstPut (succeeded s₀ calls) key = some faction := by
  obtain ⟨husers, hrows⟩ := run_registryStep_rows s₀ calls
  have hstart : s₀.characterRows = fun _ => none := by
    funext key
    simp [Database.characterRows, hempty]
  have huser : (run registryStep s₀ calls).HasUser 0 := by
    rwa [Database.HasUser, husers]
  rw [hstart] at hrows
  rw [← activeRows_eq_folded_iff, ← hrows]
  constructor
  · exact fun h => h.active
  · intro hactive
    refine ⟨hactive, fun env d c r g hkey => ?_⟩
    obtain ⟨bytes, hbytes⟩ := hkey
    rw [removeCashierCharacter_returns_iff huser hbytes, hactive]

/-- A character that is registered for the Horde, removed, and registered again. -/
def reregistered (faction : String) : List (Env × RegistryCall) :=
  [(.plain, .add (some 7) (some "Gold") (some "Kazzak") (some "EU") (some "Horde")),
    (.plain, .remove (some 7) (some "Gold") (some "Kazzak") (some "EU")),
    (.plain, .add (some 7) (some "Gold") (some "Kazzak") (some "EU") (some faction))]

theorem registry_folds_iff_reregistered :
    (run registryStep .seeded (reregistered "Horde")).RegistryIs
        (folded (succeeded .seeded (reregistered "Horde"))) ↔
      ∀ key faction, folded (succeeded .seeded (reregistered "Horde")) key = some faction →
        firstPut (succeeded .seeded (reregistered "Horde")) key = some faction :=
  registry_folds_iff rfl seeded_empty.treasuryUser (reregistered "Horde")

/-- Registered again for the Alliance, the character stays with the Horde. -/
theorem registry_keeps_first_faction :
    ¬ (run registryStep .seeded (reregistered "Alliance")).RegistryIs
        (folded (succeeded .seeded (reregistered "Alliance"))) := by
  intro hregistry
  have hactive := congrFun hregistry.active ⟨7, "Gold", "Kazzak", .EU⟩
  revert hactive
  decide +kernel

end DeathRoll
