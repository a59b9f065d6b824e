import DeathRoll.Core.Seeds
import DeathRoll.Ledger.Roster
import DeathRoll.Relational.Query

/-! # Matching cashiers

`deathroll_core/balance/cashier_roster.py` and `cashier_matcher.py`. The roster query
collects the regions and the factions of a cashier's active characters apart from each
other, and the matcher asks for one of each.
-/

namespace DeathRoll

open Relational

/-! ## The roster -/

/-- A row of the roster query. -/
structure RosterRow where
  discordId : Int
  status : CashierState
  lastActiveAt : Timestamp
  regions : List String
  factions : List String
deriving DecidableEq

/-- A joined row of `dw.cashier_status` and `dw.cashier_characters`. -/
abbrev RosterJoin := (Int × CashierStatus) × Option (CharacterKey × CashierCharacter)

/-- A column of the joined character, `WHERE cc.is_active`. -/
def RosterJoin.active (column : CharacterKey → CashierCharacter → String) (row : RosterJoin) :
    Option String :=
  row.2.bind fun cc => if cc.2.isActive then some (column cc.1 cc.2) else none

def CharacterKey.regionText (key : CharacterKey) (_ : CashierCharacter) : String := key.region.text

def CashierCharacter.factionText (_ : CharacterKey) (row : CashierCharacter) : String :=
  row.faction.text

/-- `cs LEFT JOIN cc ON cc.discord_id = cs.discord_id`. -/
def Database.rosterJoins (s : Database) : List RosterJoin :=
  leftJoin (fun cs cc => decide (cc.1.discordId = cs.1)) s.cashierStatus.rows
    s.cashierCharacters.rows

/-- `GROUP BY cs.discord_id, cs.status, cs.last_active_at`. -/
def RosterJoin.key (row : RosterJoin) : Int × CashierState × Timestamp :=
  (row.1.1, row.1.2.status, row.1.2.lastActiveAt)

def Database.rosterQuery (s : Database) : List RosterRow :=
  (groupBy RosterJoin.key s.rosterJoins).map fun group =>
    { discordId := group.1.1
      status := group.1.2.1
      lastActiveAt := group.1.2.2
      regions := (arrayAggDistinct (RosterJoin.active CharacterKey.regionText) group.2).getD []
      factions :=
        (arrayAggDistinct (RosterJoin.active CashierCharacter.factionText) group.2).getD [] }

/-- One cashier in the roster snapshot. -/
structure RosterEntry where
  discordId : Int
  status : CashierState
  regions : List String
  factions : List String
  lastActiveAt : Timestamp
deriving DecidableEq

structure RosterSnapshot where
  onlineByRegion : List (String × List RosterEntry) := []
  onBreak : List RosterEntry := []
  offlineCount : Nat := 0
deriving DecidableEq

def RosterRow.entry (row : RosterRow) : RosterEntry :=
  { discordId := row.discordId, status := row.status, regions := row.regions,
    factions := row.factions, lastActiveAt := row.lastActiveAt }

/-- One pass of the loop over the rows. -/
def RosterSnapshot.add (snapshot : RosterSnapshot) (row : RosterRow) : RosterSnapshot :=
  match row.status with
  | .online =>
      { snapshot with
        onlineByRegion := row.regions.foldl (addToBucket · · row.entry) snapshot.onlineByRegion }
  | .break => { snapshot with onBreak := snapshot.onBreak ++ [row.entry] }
  | .offline => { snapshot with offlineCount := snapshot.offlineCount + 1 }

/-- The snapshot of the rows that the query returned. -/
def fetchOnlineRoster (rows : List RosterRow) : RosterSnapshot := rows.foldl .add {}

/-! ## The matcher -/

inductive MatchError where
  | invalidRegion (region : String)
  | invalidFaction (faction : String)
deriving DecidableEq

/-- `_VALID_REGIONS` and `_VALID_FACTIONS` are the texts of the two checks in the tables. -/
def findCompatibleCashiers (snapshot : RosterSnapshot) (region faction : String) :
    Except MatchError (List RosterEntry) :=
  if region ∉ Region.texts then .error (.invalidRegion region)
  else if faction ∉ Faction.texts then .error (.invalidFaction faction)
  else .ok ((bucketOf snapshot.onlineByRegion region).filter fun e => faction ∈ e.factions)

/-! ## Whom a cashier serves -/

/-- An active character of the cashier. -/
def Database.HasCharacter (s : Database) (cashier : Int)
    (p : CharacterKey → CashierCharacter → Prop) : Prop :=
  ∃ key row, s.cashierCharacters.get? key = some row ∧ key.discordId = cashier ∧
    row.isActive = true ∧ p key row

/-- One active character of the cashier is both in the region and of the faction. -/
def Database.Serves (s : Database) (cashier : Int) (region : Region) (faction : Faction) : Prop :=
  s.HasCharacter cashier fun key row => key.region = region ∧ row.faction = faction

/-- The entries are the online cashiers that serve the region and the faction, each once. -/
structure MatchesExactly (s : Database) (region : Region) (faction : Faction)
    (entries : List RosterEntry) : Prop where
  once : (entries.map RosterEntry.discordId).Nodup
  serves : ∀ cashier, cashier ∈ entries.map RosterEntry.discordId ↔
    s.Online cashier ∧ s.Serves cashier region faction

variable {s : Database} {cashier : Int} {region : Region} {faction : Faction}

@[simp] theorem Region.text_inj {a b : Region} : a.text = b.text ↔ a = b := by
  constructor
  · intro heq
    rw [← Option.some_inj, ← a.ofText_text, heq, b.ofText_text]
  · exact congrArg Region.text

@[simp] theorem Faction.text_inj {a b : Faction} : a.text = b.text ↔ a = b := by
  constructor
  · intro heq
    rw [← Option.some_inj, ← a.ofText_text, heq, b.ofText_text]
  · exact congrArg Faction.text

/-! ## What the query answers -/

/-- A row that is right about its cashier. -/
structure RosterRow.Accurate (row : RosterRow) (s : Database) : Prop where
  online : row.status = .online ↔ s.Online row.discordId
  regions : ∀ text, text ∈ row.regions ↔
    s.HasCharacter row.discordId fun key _ => key.region.text = text
  factions : ∀ text, text ∈ row.factions ↔
    s.HasCharacter row.discordId fun _ cc => cc.faction.text = text
  nodup : row.regions.Nodup

theorem mem_rosterJoins {cs : Int × CashierStatus} {cc : CharacterKey × CashierCharacter} :
    (cs, some cc) ∈ s.rosterJoins ↔ s.cashierStatus.get? cs.1 = some cs.2 ∧
      s.cashierCharacters.get? cc.1 = some cc.2 ∧ cc.1.discordId = cs.1 := by
  rw [Database.rosterJoins, mem_leftJoin_some, decide_eq_true_iff, Table.get?_eq_some,
    Table.get?_eq_some]

/-- The rows of a group belong to one cashier. -/
theorem exists_of_mem_keys {k : Int × CashierState × Timestamp}
    (hk : k ∈ s.rosterJoins.map RosterJoin.key) :
    ∃ cs : CashierStatus, s.cashierStatus.get? k.1 = some cs ∧
      k = (k.1, cs.status, cs.lastActiveAt) := by
  obtain ⟨⟨⟨cashier, cs⟩, partner⟩, hmem, rfl⟩ := List.mem_map.mp hk
  have hleft : (cashier, cs) ∈ s.cashierStatus.rows := exists_mem_leftJoin.mp ⟨partner, hmem⟩
  exact ⟨cs, Table.get?_eq_some.mpr hleft, rfl⟩

/-- What a column of a group collects. -/
theorem mem_collected (column : CharacterKey → CashierCharacter → String) {text : String}
    {k : Int × CashierState × Timestamp} (hk : k ∈ s.rosterJoins.map RosterJoin.key) :
    text ∈ (arrayAggDistinct (RosterJoin.active column)
        (s.rosterJoins.filter fun row => row.key = k)).getD [] ↔
      s.HasCharacter k.1 fun key cc => column key cc = text := by
  rw [coalesce_arrayAggDistinct, List.mem_dedup, List.mem_filterMap]
  constructor
  · rintro ⟨⟨cs, partner⟩, hmem, hvalue⟩
    obtain ⟨hjoined, hkey⟩ := List.mem_filter.mp hmem
    have hcashier : cs.1 = k.1 := congrArg Prod.fst (of_decide_eq_true hkey)
    obtain ⟨cc, rfl, hactive⟩ := Option.bind_eq_some_iff.mp hvalue
    obtain ⟨-, hrow, howner⟩ := mem_rosterJoins.mp hjoined
    split_ifs at hactive with hon
    exact ⟨cc.1, cc.2, hrow, howner.trans hcashier, hon, Option.some.inj hactive⟩
  · rintro ⟨key, cc, hrow, howner, hon, hcolumn⟩
    obtain ⟨cs, hstatus, hshape⟩ := exists_of_mem_keys hk
    refine ⟨((k.1, cs), some (key, cc)), List.mem_filter.mpr ⟨?_, ?_⟩, ?_⟩
    · exact mem_rosterJoins.mpr ⟨hstatus, hrow, howner⟩
    · exact decide_eq_true hshape.symm
    · simp [RosterJoin.active, hon, hcolumn]

theorem rosterQuery_accurate {row : RosterRow} (hrow : row ∈ s.rosterQuery) : row.Accurate s := by
  obtain ⟨⟨k, group⟩, hgroup, rfl⟩ := List.mem_map.mp hrow
  obtain ⟨hk, rfl⟩ := mem_groupBy.mp hgroup
  obtain ⟨cs, hstatus, hshape⟩ := exists_of_mem_keys hk
  refine ⟨?_, fun text => mem_collected _ hk, fun text => mem_collected _ hk, ?_⟩
  · have hstate : k.2.1 = cs.status := congrArg (fun key => key.2.1) hshape
    simp only [hstate, Database.Online, hstatus, Option.some.injEq, exists_eq_left']
  · rw [coalesce_arrayAggDistinct]
    exact List.nodup_dedup _

theorem rosterQuery_nodup (s : Database) : (s.rosterQuery.map RosterRow.discordId).Nodup := by
  have hkeys : s.rosterQuery.map RosterRow.discordId =
      ((s.rosterJoins.map RosterJoin.key).dedup).map Prod.fst := by
    rw [← keys_groupBy, Database.rosterQuery, List.map_map, List.map_map]
    rfl
  rw [hkeys]
  refine (List.nodup_dedup _).map_on fun a ha b hb hcashier => ?_
  obtain ⟨first, hfirst, hafirst⟩ := exists_of_mem_keys (List.mem_dedup.mp ha)
  obtain ⟨second, hsecond, hbsecond⟩ := exists_of_mem_keys (List.mem_dedup.mp hb)
  rw [hcashier, hsecond] at hfirst
  obtain rfl := Option.some.inj hfirst
  rw [hafirst, hbsecond, hcashier]

theorem exists_rosterQuery (honline : s.Online cashier) :
    ∃ row ∈ s.rosterQuery, row.discordId = cashier := by
  obtain ⟨cs, hstatus, -⟩ := honline
  obtain ⟨partner, hjoined⟩ : ∃ partner, ((cashier, cs), partner) ∈ s.rosterJoins :=
    exists_mem_leftJoin.mpr (Table.get?_eq_some.mp hstatus)
  have hk : RosterJoin.key ((cashier, cs), partner) ∈ s.rosterJoins.map RosterJoin.key :=
    List.mem_map_of_mem hjoined
  exact ⟨_, List.mem_map_of_mem (mem_groupBy.mpr ⟨hk, rfl⟩), rfl⟩

/-! ## What the matcher makes of it -/

theorem bucketOf_foldl_add {rows : List RosterRow} (hnodup : ∀ row ∈ rows, row.regions.Nodup)
    (snapshot : RosterSnapshot) (text : String) :
    bucketOf (rows.foldl .add snapshot).onlineByRegion text =
      bucketOf snapshot.onlineByRegion text ++
        (rows.filter fun row => row.status = .online ∧ text ∈ row.regions).map RosterRow.entry := by
  induction rows generalizing snapshot with
  | nil => simp
  | cons row rest ih =>
      obtain ⟨hrow, hrest⟩ := List.forall_mem_cons.mp hnodup
      rw [List.foldl_cons, ih hrest]
      unfold RosterSnapshot.add
      cases hstatus : row.status with
      | online =>
          rw [bucketOf_foldl_addToBucket hrow]
          by_cases hregion : text ∈ row.regions <;> simp [hstatus, hregion]
      | offline => simp [hstatus]
      | «break» => simp [hstatus]

/-- The matcher keeps the rows of the online cashiers that name the region and the faction. -/
theorem findCompatibleCashiers_eq {rows : List RosterRow}
    (hnodup : ∀ row ∈ rows, row.regions.Nodup) (region : Region) (faction : Faction) :
    findCompatibleCashiers (fetchOnlineRoster rows) region.text faction.text =
      .ok ((rows.filter fun row => row.status = .online ∧ region.text ∈ row.regions ∧
        faction.text ∈ row.factions).map RosterRow.entry) := by
  unfold findCompatibleCashiers
  rw [if_neg (not_not.mpr region.text_mem_texts), if_neg (not_not.mpr faction.text_mem_texts)]
  rw [fetchOnlineRoster, bucketOf_foldl_add hnodup]
  simp only [bucketOf, List.lookup_nil, Option.getD_none, List.nil_append, List.filter_map,
    List.filter_filter]
  congr 2
  refine List.filter_congr fun row _ => Bool.eq_iff_iff.mpr ?_
  simp only [Function.comp_apply, Bool.and_eq_true, decide_eq_true_iff]
  constructor
  · rintro ⟨hfaction, hstatus, hregion⟩
    exact ⟨hstatus, hregion, hfaction⟩
  · rintro ⟨hstatus, hregion, hfaction⟩
    exact ⟨hfaction, hstatus, hregion⟩

/-- The online cashier has active characters in the region and active characters of the
faction. -/
theorem mem_compatible {rows : List RosterRow} (hrows : rows.Perm s.rosterQuery) :
    cashier ∈ ((rows.filter fun row => row.status = .online ∧ region.text ∈ row.regions ∧
        faction.text ∈ row.factions).map RosterRow.entry).map RosterEntry.discordId ↔
      s.Online cashier ∧ (s.HasCharacter cashier fun key _ => key.region = region) ∧
        s.HasCharacter cashier fun _ cc => cc.faction = faction := by
  have haccurate : ∀ row ∈ rows, row.Accurate s := fun row hrow =>
    rosterQuery_accurate (hrows.mem_iff.mp hrow)
  simp only [List.map_map, List.mem_map, List.mem_filter, decide_eq_true_iff]
  constructor
  · rintro ⟨row, ⟨hrow, hstatus, hregion, hfaction⟩, rfl⟩
    obtain ⟨honline, hregions, hfactions, -⟩ := haccurate row hrow
    simp only [hregions, hfactions, Region.text_inj, Faction.text_inj] at hregion hfaction
    exact ⟨honline.mp hstatus, hregion, hfaction⟩
  · rintro ⟨hcashier, hregion, hfaction⟩
    obtain ⟨row, hmem, rfl⟩ := exists_rosterQuery hcashier
    have hrow := hrows.mem_iff.mpr hmem
    obtain ⟨honline, hregions, hfactions, -⟩ := haccurate row hrow
    refine ⟨row, ⟨hrow, honline.mpr hcashier, ?_, ?_⟩, rfl⟩
    · simpa only [hregions, Region.text_inj] using hregion
    · simpa only [hfactions, Faction.text_inj] using hfaction

/-- The matcher answers with the cashiers that serve the region and the faction, each once,
unless an online cashier has one character in the region and another of the faction but
none that is both. -/
theorem matches_exactly_iff (s : Database) (rows : List RosterRow)
    (hrows : rows.Perm s.rosterQuery) (region : Region) (faction : Faction) :
    (∃ entries, findCompatibleCashiers (fetchOnlineRoster rows) region.text faction.text =
        .ok entries ∧ MatchesExactly s region faction entries) ↔
      ∀ cashier, s.Online cashier → (s.HasCharacter cashier fun key _ => key.region = region) →
        (s.HasCharacter cashier fun _ cc => cc.faction = faction) →
        s.Serves cashier region faction := by
  have hnodup : ∀ row ∈ rows, row.regions.Nodup := fun row hrow =>
    (rosterQuery_accurate (hrows.mem_iff.mp hrow)).nodup
  rw [findCompatibleCashiers_eq hnodup]
  constructor
  · rintro ⟨entries, hentries, hexact⟩ cashier honline hregion hfaction
    obtain rfl := Except.ok.inj hentries
    exact ((hexact.serves cashier).mp
      ((mem_compatible hrows).mpr ⟨honline, hregion, hfaction⟩)).2
  · intro hpaired
    refine ⟨_, rfl, ?_, fun cashier => ?_⟩
    · rw [List.map_map]
      have hids : (rows.map RosterRow.discordId).Nodup :=
        (hrows.map _).nodup_iff.mpr (rosterQuery_nodup s)
      exact hids.sublist (List.filter_sublist.map RosterRow.discordId)
    · rw [mem_compatible hrows]
      constructor
      · rintro ⟨honline, hregion, hfaction⟩
        exact ⟨honline, hpaired cashier honline hregion hfaction⟩
      · rintro ⟨honline, key, cc, hrow, howner, hactive, hregion, hfaction⟩
        exact ⟨honline, ⟨key, cc, hrow, howner, hactive, hregion⟩,
          ⟨key, cc, hrow, howner, hactive, hfaction⟩⟩

/-- A cashier with a Horde character in `EU` and an Alliance character in `NA`. -/
def crossedCashier : Database :=
  { Database.seeded with
    cashierStatus := .ofList [(7, { status := .online, setAt := 0, lastActiveAt := 0 })]
    cashierCharacters := .ofList
      [({ discordId := 7, charName := "Gold", realm := "Kazzak", region := .EU },
          { id := 1, faction := .Horde, isActive := true, addedAt := 0 }),
        ({ discordId := 7, charName := "Rush", realm := "Stormrage", region := .NA },
          { id := 2, faction := .Alliance, isActive := true, addedAt := 0 })] }

theorem matches_exactly_iff_crossed :
    (∃ entries, findCompatibleCashiers (fetchOnlineRoster crossedCashier.rosterQuery)
        Region.EU.text Faction.Horde.text = .ok entries ∧
          MatchesExactly crossedCashier .EU .Horde entries) ↔
      ∀ cashier, crossedCashier.Online cashier →
        (crossedCashier.HasCharacter cashier fun key _ => key.region = .EU) →
        (crossedCashier.HasCharacter cashier fun _ cc => cc.faction = .Horde) →
        crossedCashier.Serves cashier .EU .Horde :=
  matches_exactly_iff crossedCashier crossedCashier.rosterQuery (.refl _) .EU .Horde

/-- Asked for an Alliance character in `EU`, the matcher names that cashier. -/
theorem matches_crossed_cashier :
    ¬ ∃ entries, findCompatibleCashiers (fetchOnlineRoster crossedCashier.rosterQuery)
        "EU" "Alliance" = .ok entries ∧ MatchesExactly crossedCashier .EU .Alliance entries := by
  rintro ⟨entries, hentries, hexact⟩
  have hfound : findCompatibleCashiers (fetchOnlineRoster crossedCashier.rosterQuery)
      "EU" "Alliance" =
        .ok [⟨7, .online, ["EU", "NA"], ["Horde", "Alliance"], 0⟩] := by
    decide +kernel
  obtain rfl := Except.ok.inj (hfound.symm.trans hentries)
  obtain ⟨-, key, cc, hrow, -, -, hregion, hfaction⟩ := (hexact.serves 7).mp (by simp)
  have hrows : (key, cc) ∈ crossedCashier.cashierCharacters.rows := Table.get?_eq_some.mp hrow
  have hall : ∀ row ∈ crossedCashier.cashierCharacters.rows,
      ¬ (row.1.region = .EU ∧ row.2.faction = .Alliance) := by
    decide +kernel
  exact hall (key, cc) hrows ⟨hregion, hfaction⟩

end DeathRoll
