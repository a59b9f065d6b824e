import DeathRoll.Audit.Truncation

/-! # Verifying the audit log in windows

The verifier worker checks the log a window at a time and remembers the id of
the last row it checked, with which the next window begins. With windows of two
rows or more, what the ticks find in the end is what one pass over all rows
finds. Rows under negative ids stay out of the sight of both.
-/

namespace DeathRoll

open Relational

variable {env : Env} {key : Bytes} {log : List AuditRow}

/-- A `tick` that checks at most so many rows. -/
def cappedTick (env : Env) (store : AuditStore) (maxRows : Nat) (pointer : Option Int) :
    Except DbError VerifyResult × Option Int :=
  match verifyAuditChain env store.auditLog (some (readLastVerified pointer)) maxRows with
  | .error e => (.error e, pointer)
  | .ok result =>
      if result.brokenAtId ≠ none then (.ok result, pointer)
      else if 0 < result.checkedCount then (.ok result, some result.lastVerifiedId)
      else (.ok result, pointer)

theorem tick_eq_cappedTick (env : Env) (store : AuditStore) (pointer : Option Int) :
    tick env store pointer = cappedTick env store maxRowsPerTick pointer := rfl

/-- The pointer that so many ticks leave, the first of which finds none. -/
def pointerAfter (env : Env) (store : AuditStore) (maxRows count : Nat) : Option Int :=
  (fun pointer => (cappedTick env store maxRows pointer).2)^[count] none

/-- The rows that a pass from 0 sees, in id order. -/
def visibleRows (log : List AuditRow) : List AuditRow :=
  (inIdOrder log).filter fun row => (0 : Int) ≤ row.id

/-- The rows that the next tick sees. -/
def nextRows (log : List AuditRow) (maxRows : Nat) (pointer : Option Int) : List AuditRow :=
  ((inIdOrder log).filter fun row => readLastVerified pointer ≤ row.id).take maxRows

/-- Some row in sight comes after the pointer. -/
def UnverifiedRows (log : List AuditRow) (pointer : Option Int) : Prop :=
  ∃ row ∈ log, 0 ≤ row.id ∧ ∀ id, pointer = some id → id < row.id

/-- What ticks of so many rows find, against the result of a pass over all rows. -/
structure VerifiesIncrementally (env : Env) (store : AuditStore) (maxRows : Nat)
    (full : VerifyResult) : Prop where
  exists_row : ∀ count id, pointerAfter env store maxRows count = some id →
    ∃ row ∈ store.auditLog, row.id = id
  monotone : ∀ count id, pointerAfter env store maxRows count = some id →
    ∃ id', pointerAfter env store maxRows (count + 1) = some id' ∧ id ≤ id'
  advances : ∀ count, UnverifiedRows store.auditLog (pointerAfter env store maxRows count) →
    (∀ row ∈ nextRows store.auditLog maxRows (pointerAfter env store maxRows count),
      full.brokenAtId ≠ some row.id) →
    ∃ id', pointerAfter env store maxRows (count + 1) = some id' ∧
      ∀ id, pointerAfter env store maxRows count = some id → id < id'
  before_break : ∀ count id brokenAtId, pointerAfter env store maxRows count = some id →
    full.brokenAtId = some brokenAtId → id < brokenAtId
  settles : ∃ settled,
    (full.brokenAtId = none ∧ ∃ last ∈ store.auditLog,
      (∀ row ∈ store.auditLog, row.id ≤ last.id) ∧
        ∀ count, settled ≤ count → pointerAfter env store maxRows count = some last.id) ∨
    ∃ brokenAtId, full.brokenAtId = some brokenAtId ∧ ∀ count, settled ≤ count →
      ∃ result, (cappedTick env store maxRows (pointerAfter env store maxRows count)).1 =
        .ok result ∧ result.brokenAtId = some brokenAtId

/-! ## The rows from one on -/

theorem inIdOrder_strict (hids : (log.map AuditRow.id).Nodup) :
    (inIdOrder log).Pairwise fun a b => a.id < b.id := by
  have hperm : (inIdOrder log).Perm log := List.perm_insertionSort _ _
  have hdistinct : (inIdOrder log).Pairwise fun a b => a.id ≠ b.id := by
    rw [← List.pairwise_map]
    exact (hperm.map AuditRow.id).nodup_iff.mpr hids
  exact (inIdOrder_increasing log).imp₂ (fun _ _ hle hne => lt_of_le_of_ne hle hne) hdistinct

theorem mem_visibleRows {row : AuditRow} : row ∈ visibleRows log ↔ row ∈ log ∧ 0 ≤ row.id := by
  simp [visibleRows, mem_inIdOrder]

theorem length_visibleRows_le (log : List AuditRow) : (visibleRows log).length ≤ log.length := by
  have hlength : (inIdOrder log).length = log.length := List.length_insertionSort _ _
  exact hlength ▸ List.length_filter_le _ _

theorem visibleRows_strict (hids : (log.map AuditRow.id).Nodup) :
    (visibleRows log).Pairwise fun a b => a.id < b.id :=
  (inIdOrder_strict hids).filter _

/-- The rows of a log in id order from one of them on, and those below it. -/
theorem filter_split {rows before after : List AuditRow} {row : AuditRow}
    (hrows : rows.Pairwise fun a b => a.id < b.id) (hsplit : rows = before ++ row :: after) :
    (rows.filter fun other => row.id ≤ other.id) = row :: after ∧
      (rows.filter fun other => other.id < row.id) = before := by
  subst hsplit
  obtain ⟨-, hafter, hbefore⟩ := List.pairwise_append.mp hrows
  have hlater := (List.pairwise_cons.mp hafter).1
  constructor
  · rw [List.filter_append, List.filter_eq_nil_iff.mpr, List.nil_append, List.filter_eq_self]
    · intro other hother
      rcases List.mem_cons.mp hother with rfl | hother
      · simp
      · simpa using (hlater other hother).le
    · intro other hother
      simpa using hbefore other hother row List.mem_cons_self
  · rw [List.filter_append, List.filter_eq_self.mpr, List.filter_eq_nil_iff.mpr,
      List.append_nil]
    · intro other hother
      rcases List.mem_cons.mp hother with rfl | hother
      · simp
      · simpa using (hlater other hother).le
    · intro other hother
      simpa using hbefore other hother row List.mem_cons_self

/-! ## One window -/

/-- The id of the last of so many rows. -/
def pointerAt (rows : List AuditRow) (checked : Nat) : Option Int :=
  (rows.take checked).getLast?.map AuditRow.id

theorem pointerAt_succ {rows : List AuditRow} {checked : Nat} {row : AuditRow}
    (hrow : rows[checked]? = some row) : pointerAt rows (checked + 1) = some row.id := by
  simp [pointerAt, List.take_add_one, hrow]

/-- The rows of a log in id order, from the last of some checked ones on and below it. -/
theorem inIdOrder_split (hids : (log.map AuditRow.id).Nodup) {checked : Nat} {row : AuditRow}
    (hrow : (visibleRows log)[checked]? = some row) :
    ((inIdOrder log).filter fun other => row.id ≤ other.id) = (visibleRows log).drop checked ∧
      ((inIdOrder log).filter fun other => other.id < row.id) =
        ((inIdOrder log).filter fun other => other.id < 0) ++ (visibleRows log).take checked := by
  obtain ⟨hbound, hget⟩ := List.getElem?_eq_some_iff.mp hrow
  have hdrop : (visibleRows log).drop checked = row :: (visibleRows log).drop (checked + 1) := by
    rw [List.drop_eq_getElem_cons hbound, hget]
  have hsplit : inIdOrder log =
      (((inIdOrder log).filter fun other => other.id < 0) ++ (visibleRows log).take checked) ++
        row :: (visibleRows log).drop (checked + 1) := by
    rw [← hdrop, List.append_assoc, List.take_append_drop]
    exact (filter_append_filter (inIdOrder_strict hids) 0).symm
  rw [hdrop]
  exact filter_split (inIdOrder_strict hids) hsplit

/-- A pass from the last of some checked rows begins with it; with one more row checked
before, it is seeded with that one's hash. -/
theorem verifyAuditChain_pointerAt (hkey : env.chainKey = .ok key)
    (hids : (log.map AuditRow.id).Nodup) {checked : Nat}
    (hchecked : checked ≤ (visibleRows log).length) (maxRows : Nat) :
    ∃ vPrevHash,
      (checked = 0 ∨ 2 ≤ checked → vPrevHash =
        (auditChain env key).headAfter none ((visibleRows log).take (checked - 1))) ∧
      verifyAuditChain env log (some (readLastVerified (pointerAt (visibleRows log) checked)))
        maxRows = .ok (verifyRows env key (((visibleRows log).drop (checked - 1)).take maxRows)
          vPrevHash 0 (readLastVerified (pointerAt (visibleRows log) checked))) := by
  simp only [verifyAuditChain, hkey, bind, Except.bind, pure, Except.pure, Option.getD_some]
  cases checked with
  | zero => exact ⟨none, fun _ => rfl, rfl⟩
  | succ checked =>
      have hrow := List.getElem?_eq_getElem hchecked
      obtain ⟨hfrom, hbelow⟩ := inIdOrder_split hids hrow
      have hvisible := (mem_visibleRows.mp (List.mem_of_getElem? hrow)).2
      simp only [pointerAt_succ hrow, readLastVerified, Option.getD_some, Nat.add_sub_cancel, hfrom,
        hbelow]
      refine ⟨_, ?_, rfl⟩
      rintro (hzero | hmore)
      · cases hzero
      · have hfirst : 0 < checked := by omega
        have hzero := (mem_visibleRows.mp (List.getElem_mem (hfirst.trans hchecked))).2
        have hstrict := List.pairwise_iff_getElem.mp (visibleRows_strict hids) 0 checked
          (hfirst.trans hchecked) hchecked hfirst
        obtain ⟨last, hlast⟩ : ∃ last, ((visibleRows log).take checked).getLast? = some last := by
          rw [← Option.isSome_iff_exists, List.getLast?_isSome, ne_eq, List.take_eq_nil_iff]
          rintro (hnone | hnil)
          · omega
          · rw [hnil] at hchecked
            exact absurd hchecked (Nat.not_lt_zero _)
        rw [if_pos (hzero.trans_lt hstrict), List.getLast?_append, HashChain.headAfter, hlast]
        rfl

/-! ## One tick -/

variable {store : AuditStore} {maxRows checked : Nat}

theorem cappedTick_of_verified {pointer : Option Int} {result : VerifyResult}
    (hpass : verifyAuditChain env store.auditLog (some (readLastVerified pointer)) maxRows =
      .ok result) : (cappedTick env store maxRows pointer).1 = .ok result := by
  rw [cappedTick, hpass]
  dsimp only
  split_ifs <;> rfl

theorem cappedTick_of_break {pointer : Option Int} {result : VerifyResult}
    (hpass : verifyAuditChain env store.auditLog (some (readLastVerified pointer)) maxRows =
      .ok result) (hbroken : result.brokenAtId ≠ none) :
    (cappedTick env store maxRows pointer).2 = pointer := by
  rw [cappedTick, hpass]
  dsimp only
  rw [if_pos hbroken]

/-- How many of the rows in sight come before the first broken one. -/
def goodRows (env : Env) (key : Bytes) (log : List AuditRow) : Nat :=
  (auditChain env key).goodLength none (visibleRows log)

/-- The id at which a pass over all rows breaks. -/
def fullBreak (env : Env) (key : Bytes) (log : List AuditRow) : Option Int :=
  (visibleRows log)[goodRows env key log]?.map AuditRow.id

theorem goodRows_le (log : List AuditRow) : goodRows env key log ≤ (visibleRows log).length :=
  HashChain.goodLength_le _ _

/-- A window that begins in the good part breaks where the full pass does, if it reaches it. -/
theorem window_brokenAtId {start : Nat} (hstart : start ≤ goodRows env key log) (count : Nat)
    (checkedCount : Nat) (lastVerified : Int) :
    (verifyRows env key (((visibleRows log).drop start).take count)
      ((auditChain env key).headAfter none ((visibleRows log).take start)) checkedCount
      lastVerified).brokenAtId =
      if goodRows env key log < start + count then fullBreak env key log else none := by
  rw [verifyRows_brokenAtId, HashChain.firstBroken_window count hstart, apply_ite
    (Option.map AuditRow.id)]
  rfl

theorem window_unbroken {start : Nat} (hstart : start ≤ goodRows env key log) (count : Nat)
    (checkedCount : Nat) (lastVerified : Int) :
    (verifyRows env key (((visibleRows log).drop start).take count)
      ((auditChain env key).headAfter none ((visibleRows log).take start)) checkedCount
      lastVerified).brokenAtId = none ↔
      min (start + count) (visibleRows log).length ≤ goodRows env key log := by
  rw [window_brokenAtId hstart]
  split
  next hreach =>
    rw [fullBreak, Option.map_eq_none_iff, List.getElem?_eq_none_iff]
    omega
  next hreach =>
    simp only [true_iff]
    omega

theorem verifyAuditChain_full (hkey : env.chainKey = .ok key) (log : List AuditRow) :
    ∃ full, (∀ pMaxRows, log.length ≤ pMaxRows →
        verifyAuditChain env log (some 0) pMaxRows = .ok full) ∧
      full.brokenAtId = fullBreak env key log := by
  refine ⟨verifyRows env key (visibleRows log) none 0 0, fun pMaxRows hrows => ?_, ?_⟩
  · have htake : (visibleRows log).take pMaxRows = visibleRows log :=
      List.take_of_length_le ((length_visibleRows_le log).trans hrows)
    simp only [verifyAuditChain, hkey, bind, Except.bind, pure, Except.pure, Option.getD_some]
    rw [← visibleRows, htake]
    rfl
  · rw [verifyRows_brokenAtId, HashChain.firstBroken_eq_getElem?]
    rfl

/-- What a tick finds from the last of some checked rows, if it is not the only one. -/
theorem cappedTick_outcome (hkey : env.chainKey = .ok key)
    (hids : (store.auditLog.map AuditRow.id).Nodup)
    (hchecked : checked ≤ goodRows env key store.auditLog)
    (hstart : checked = 0 ∨ 2 ≤ checked) :
    ∃ result, (cappedTick env store maxRows (pointerAt (visibleRows store.auditLog) checked)).1 =
      .ok result ∧ result.brokenAtId =
        if goodRows env key store.auditLog < checked - 1 + maxRows then
          fullBreak env key store.auditLog
        else none := by
  obtain ⟨vPrevHash, hprev, hpass⟩ := verifyAuditChain_pointerAt hkey hids
    (hchecked.trans (goodRows_le _)) maxRows
  rw [hprev hstart] at hpass
  exact ⟨_, cappedTick_of_verified hpass, window_brokenAtId (by omega) maxRows 0 _⟩

/-- Where the checked rows end after a window of the following ones without a break. -/
theorem pointerAt_window (rows : List AuditRow) (hmore : 0 < maxRows)
    (hbound : checked - 1 < rows.length) (fromId : Int) :
    some ((((rows.drop (checked - 1)).take maxRows).getLast?.map AuditRow.id).getD fromId) =
      pointerAt rows (min (checked - 1 + maxRows) rows.length) := by
  have hwindow : (rows.drop (checked - 1)).take maxRows ≠ [] := by
    rw [ne_eq, List.take_eq_nil_iff, List.drop_eq_nil_iff]
    omega
  have htake : rows.take (min (checked - 1 + maxRows) rows.length) =
      rows.take (checked - 1) ++ (rows.drop (checked - 1)).take maxRows := by
    rw [← List.take_add, List.take_eq_take_iff]
    omega
  rw [pointerAt, htake, List.getLast?_append_of_ne_nil _ hwindow]
  obtain ⟨last, hlast⟩ := Option.isSome_iff_exists.mp (List.getLast?_isSome.mpr hwindow)
  rw [hlast]
  rfl

theorem cappedTick_of_chained {pointer : Option Int} {rows : List AuditRow}
    {vPrevHash : Option Bytes} {fromId : Int}
    (hpass : verifyAuditChain env store.auditLog (some (readLastVerified pointer)) maxRows =
      .ok (verifyRows env key rows vPrevHash 0 fromId)) (hrows : rows ≠ [])
    (hgood : (verifyRows env key rows vPrevHash 0 fromId).brokenAtId = none) :
    (cappedTick env store maxRows pointer).2 =
      some ((rows.getLast?.map AuditRow.id).getD fromId) := by
  rw [verifyRows_brokenAtId, Option.map_eq_none_iff, HashChain.firstBroken_eq_none] at hgood
  rw [verifyRows_of_chained hgood] at hpass
  rw [cappedTick, hpass]
  dsimp only
  rw [if_neg (by simp), if_pos (by simpa using List.length_pos_iff.mpr hrows)]

/-- A tick moves the pointer as a window moves the count of checked rows. -/
theorem cappedTick_pointer (hkey : env.chainKey = .ok key)
    (hids : (store.auditLog.map AuditRow.id).Nodup) (hcap : 2 ≤ maxRows)
    (hrows : visibleRows store.auditLog ≠ [])
    (hchecked : checked ≤ goodRows env key store.auditLog)
    (hstart : checked = 0 ∨ 2 ≤ checked ∨ (visibleRows store.auditLog).length ≤ 1) :
    (cappedTick env store maxRows (pointerAt (visibleRows store.auditLog) checked)).2 =
      pointerAt (visibleRows store.auditLog)
        ((auditChain env key).resume maxRows none (visibleRows store.auditLog) checked) := by
  obtain ⟨vPrevHash, hprev, hpass⟩ := verifyAuditChain_pointerAt hkey hids
    (hchecked.trans (goodRows_le _)) maxRows
  have hlength := List.length_pos_iff.mpr hrows
  have hgood := hchecked.trans (goodRows_le _)
  -- the only row in sight, once passed, is left where it is
  have hwindow : checked = 1 ∧ (visibleRows store.auditLog).length = 1 ∨
      ((verifyRows env key (((visibleRows store.auditLog).drop (checked - 1)).take maxRows)
        vPrevHash 0 (readLastVerified (pointerAt (visibleRows store.auditLog) checked))).brokenAtId
        = none ↔ min (checked - 1 + maxRows) (visibleRows store.auditLog).length ≤
          goodRows env key store.auditLog) := by
    by_cases hmulti : checked = 0 ∨ 2 ≤ checked
    · rw [hprev hmulti]
      exact .inr (window_unbroken (by omega) maxRows 0 _)
    · left
      omega
  rw [HashChain.resume, ← goodRows]
  by_cases hbroken : (verifyRows env key
      (((visibleRows store.auditLog).drop (checked - 1)).take maxRows) vPrevHash 0
      (readLastVerified (pointerAt (visibleRows store.auditLog) checked))).brokenAtId = none
  · have hnonempty : ((visibleRows store.auditLog).drop (checked - 1)).take maxRows ≠ [] := by
      rw [ne_eq, List.take_eq_nil_iff, List.drop_eq_nil_iff]
      omega
    have hpassed : min (checked - 1 + maxRows) (visibleRows store.auditLog).length ≤
        goodRows env key store.auditLog := by
      rcases hwindow with hsingle | hwindow
      · omega
      · exact hwindow.mp hbroken
    rw [cappedTick_of_chained hpass hnonempty hbroken,
      pointerAt_window _ (by omega) (by omega), if_pos hpassed]
  · rw [cappedTick_of_break hpass hbroken]
    split
    next hpassed =>
      rcases hwindow with hsingle | hwindow
      · congr 1
        omega
      · exact absurd (hwindow.mpr hpassed) hbroken
    next => rfl

/-! ## All ticks -/

/-- How many rows in sight are checked after so many ticks. -/
def checkedAfter (env : Env) (key : Bytes) (store : AuditStore) (maxRows count : Nat) : Nat :=
  ((auditChain env key).resume maxRows none (visibleRows store.auditLog))^[count] 0

theorem checkedAfter_succ (count : Nat) :
    checkedAfter env key store maxRows (count + 1) =
      (auditChain env key).resume maxRows none (visibleRows store.auditLog)
        (checkedAfter env key store maxRows count) :=
  Function.iterate_succ_apply' _ _ _

theorem checkedAfter_le (hcap : 2 ≤ maxRows) (count : Nat) :
    checkedAfter env key store maxRows count ≤ goodRows env key store.auditLog :=
  (HashChain.resume_iterate_settled hcap count).1

/-- After no row or two rows or the only row in sight comes the next window. -/
theorem checkedAfter_start (hcap : 2 ≤ maxRows) (count : Nat) :
    checkedAfter env key store maxRows count = 0 ∨ 2 ≤ checkedAfter env key store maxRows count ∨
      (visibleRows store.auditLog).length ≤ 1 := by
  induction count with
  | zero => exact .inl rfl
  | succ count ih =>
      rw [checkedAfter_succ, HashChain.resume]
      split <;> omega

theorem pointerAfter_eq (hkey : env.chainKey = .ok key)
    (hids : (store.auditLog.map AuditRow.id).Nodup) (hcap : 2 ≤ maxRows)
    (hrows : visibleRows store.auditLog ≠ []) (count : Nat) :
    pointerAfter env store maxRows count =
      pointerAt (visibleRows store.auditLog) (checkedAfter env key store maxRows count) := by
  induction count with
  | zero => rfl
  | succ count ih =>
      have hstep : pointerAfter env store maxRows (count + 1) =
          (cappedTick env store maxRows (pointerAfter env store maxRows count)).2 :=
        Function.iterate_succ_apply' _ _ _
      rw [hstep, ih, checkedAfter_succ]
      exact cappedTick_pointer hkey hids hcap hrows (checkedAfter_le hcap count)
        (checkedAfter_start hcap count)

theorem checkedAfter_settled (hcap : 2 ≤ maxRows) {count : Nat}
    (hcount : (visibleRows store.auditLog).length < count) :
    checkedAfter env key store maxRows count =
      checkedAfter env key store maxRows ((visibleRows store.auditLog).length + 1) := by
  induction count, hcount using Nat.le_induction with
  | base => rfl
  | succ count hcount ih =>
      have hgood : checkedAfter env key store maxRows count ≤ goodRows env key store.auditLog :=
        checkedAfter_le hcap count
      have hbound := hgood.trans (goodRows_le _)
      rw [checkedAfter_succ, ← ih]
      have hstop : count ≤ checkedAfter env key store maxRows count ∨ _ :=
        (HashChain.resume_iterate_settled hcap count).2
      rcases hstop with hmore | hsettled
      · exact absurd (hmore.trans hbound) (by omega)
      · exact hsettled

/-- In the end every row in sight is checked or each window reaches the break. -/
theorem checkedAfter_end (hcap : 2 ≤ maxRows) {count : Nat}
    (hcount : (visibleRows store.auditLog).length < count) :
    checkedAfter env key store maxRows count = (visibleRows store.auditLog).length ∨
      goodRows env key store.auditLog <
        min (checkedAfter env key store maxRows count - 1 + maxRows)
          (visibleRows store.auditLog).length := by
  have hsettled : checkedAfter env key store maxRows (count + 1) =
      checkedAfter env key store maxRows count :=
    (checkedAfter_settled hcap (hcount.trans (Nat.lt_succ_self count))).trans
      (checkedAfter_settled hcap hcount).symm
  rw [checkedAfter_succ] at hsettled
  exact HashChain.resume_eq_self hcap (checkedAfter_le hcap count) hsettled

theorem exists_pointerAt {rows : List AuditRow} {checked : Nat} (hpos : 0 < checked)
    (hchecked : checked ≤ rows.length) :
    ∃ row, rows[checked - 1]? = some row ∧ pointerAt rows checked = some row.id := by
  obtain ⟨position, rfl⟩ := Nat.exists_eq_succ_of_ne_zero hpos.ne'
  have hrow := List.getElem?_eq_getElem hchecked
  exact ⟨_, hrow, pointerAt_succ hrow⟩

theorem pointerAt_eq_some {rows : List AuditRow} {checked : Nat} (hchecked : checked ≤ rows.length)
    {id : Int} (hid : pointerAt rows checked = some id) :
    ∃ row, 0 < checked ∧ rows[checked - 1]? = some row ∧ row.id = id := by
  rcases checked.eq_zero_or_pos with rfl | hpos
  · cases hid
  · obtain ⟨row, hrow, hpointer⟩ := exists_pointerAt hpos hchecked
    exact ⟨row, hpos, hrow, Option.some.inj (hpointer.symm.trans hid)⟩

/-- Later rows in sight have greater ids. -/
theorem visibleRows_lt (hids : (log.map AuditRow.id).Nodup) {i j : Nat} {row row' : AuditRow}
    (hrow : (visibleRows log)[i]? = some row) (hrow' : (visibleRows log)[j]? = some row')
    (hlt : i < j) : row.id < row'.id := by
  obtain ⟨hi, rfl⟩ := List.getElem?_eq_some_iff.mp hrow
  obtain ⟨hj, rfl⟩ := List.getElem?_eq_some_iff.mp hrow'
  exact List.pairwise_iff_getElem.mp (visibleRows_strict hids) i j hi hj hlt

theorem visibleRows_le (hids : (log.map AuditRow.id).Nodup) {i j : Nat} {row row' : AuditRow}
    (hrow : (visibleRows log)[i]? = some row) (hrow' : (visibleRows log)[j]? = some row')
    (hle : i ≤ j) : row.id ≤ row'.id := by
  rcases hle.lt_or_eq with hlt | rfl
  · exact (visibleRows_lt hids hrow hrow' hlt).le
  · rw [hrow, Option.some.injEq] at hrow'
    exact hrow' ▸ le_rfl

theorem nextRows_pointerAt (hids : (log.map AuditRow.id).Nodup)
    (hchecked : checked ≤ (visibleRows log).length) :
    nextRows log maxRows (pointerAt (visibleRows log) checked) =
      ((visibleRows log).drop (checked - 1)).take maxRows := by
  cases checked with
  | zero => rfl
  | succ checked =>
      have hrow := List.getElem?_eq_getElem hchecked
      rw [nextRows, pointerAt_succ hrow, readLastVerified, Option.getD_some,
        (inIdOrder_split hids hrow).1, Nat.add_sub_cancel]

/-- While rows are left and the window has no break, the check goes on. -/
theorem lt_checkedAfter_succ (hids : (store.auditLog.map AuditRow.id).Nodup) (hcap : 2 ≤ maxRows)
    {count : Nat}
    (hrest : UnverifiedRows store.auditLog
      (pointerAt (visibleRows store.auditLog) (checkedAfter env key store maxRows count)))
    (hnext : ∀ row ∈ nextRows store.auditLog maxRows
        (pointerAt (visibleRows store.auditLog) (checkedAfter env key store maxRows count)),
      fullBreak env key store.auditLog ≠ some row.id) :
    checkedAfter env key store maxRows count < checkedAfter env key store maxRows (count + 1) := by
  have hgood : checkedAfter env key store maxRows count ≤ goodRows env key store.auditLog :=
    checkedAfter_le hcap count
  have hbound := hgood.trans (goodRows_le _)
  obtain ⟨row, hrow, hvisible, hbeyond⟩ := hrest
  obtain ⟨position, hposition⟩ := List.mem_iff_getElem?.mp (mem_visibleRows.mpr ⟨hrow, hvisible⟩)
  have hlength := (List.getElem?_eq_some_iff.mp hposition).1
  rw [checkedAfter_succ]
  apply HashChain.lt_resume hcap
  · -- the last row checked is not the last row
    by_contra! hall
    obtain ⟨last, hlast, hpointer⟩ := exists_pointerAt (by omega) hbound
    have hbelow := hbeyond _ hpointer
    have habove := visibleRows_le hids hposition hlast (by omega)
    omega
  · by_contra! hbreak
    change goodRows env key store.auditLog < _ at hbreak
    have hbroken := List.getElem?_eq_getElem (hbreak.trans_le (min_le_right _ _))
    refine hnext _ ?_ (by rw [fullBreak, hbroken, Option.map_some])
    rw [nextRows_pointerAt hids hbound, List.mem_iff_getElem?]
    refine ⟨goodRows env key store.auditLog - (checkedAfter env key store maxRows count - 1), ?_⟩
    rw [List.getElem?_take_of_lt (by omega), List.getElem?_drop, ← hbroken]
    congr 1
    omega

/-- Without a break the ticks settle at the last row. -/
theorem checkedAfter_settles_last (hids : (store.auditLog.map AuditRow.id).Nodup)
    (hcap : 2 ≤ maxRows) (hvisible : visibleRows store.auditLog ≠ [])
    (hall : (visibleRows store.auditLog).length ≤ goodRows env key store.auditLog) :
    fullBreak env key store.auditLog = none ∧ ∃ last ∈ store.auditLog,
      (∀ row ∈ store.auditLog, row.id ≤ last.id) ∧
        ∀ count, (visibleRows store.auditLog).length + 1 ≤ count →
          pointerAt (visibleRows store.auditLog) (checkedAfter env key store maxRows count) =
            some last.id := by
  have hend : checkedAfter env key store maxRows ((visibleRows store.auditLog).length + 1) =
      (visibleRows store.auditLog).length := by
    rcases checkedAfter_end hcap (Nat.lt_succ_self _) with hend | hreach
    · exact hend
    · omega
  obtain ⟨last, hlast, hpointer⟩ := exists_pointerAt (List.length_pos_iff.mpr hvisible) le_rfl
  have hlast' := mem_visibleRows.mp (List.mem_of_getElem? hlast)
  refine ⟨by rw [fullBreak, List.getElem?_eq_none hall, Option.map_none], last, hlast'.1, ?_, ?_⟩
  · intro row hrow
    by_cases hid : 0 ≤ row.id
    · obtain ⟨position, hposition⟩ := List.mem_iff_getElem?.mp (mem_visibleRows.mpr ⟨hrow, hid⟩)
      have hlength := (List.getElem?_eq_some_iff.mp hposition).1
      exact visibleRows_le hids hposition hlast (by omega)
    · exact (not_le.mp hid).le.trans hlast'.2
  · intro count hcount
    rw [checkedAfter_settled hcap hcount, hend, hpointer]

/-- With a break they settle in front of it, and each of them finds it. -/
theorem cappedTick_settles_break (hkey : env.chainKey = .ok key)
    (hids : (store.auditLog.map AuditRow.id).Nodup) (hcap : 2 ≤ maxRows) {brokenAtId : Int}
    (hbreak : fullBreak env key store.auditLog = some brokenAtId) {count : Nat}
    (hcount : (visibleRows store.auditLog).length < count) :
    ∃ result, (cappedTick env store maxRows
        (pointerAt (visibleRows store.auditLog) (checkedAfter env key store maxRows count))).1 =
      .ok result ∧ result.brokenAtId = some brokenAtId := by
  have hgood : checkedAfter env key store maxRows count ≤ goodRows env key store.auditLog :=
    checkedAfter_le hcap count
  have hbroken : goodRows env key store.auditLog < (visibleRows store.auditLog).length := by
    obtain ⟨row, hrow, -⟩ := Option.map_eq_some_iff.mp hbreak
    exact (List.getElem?_eq_some_iff.mp hrow).1
  have hend : checkedAfter env key store maxRows count =
      (visibleRows store.auditLog).length ∨ _ := checkedAfter_end hcap hcount
  rcases hend with hend | hreach
  · omega
  · have hstart : checkedAfter env key store maxRows count = 0 ∨ _ :=
      checkedAfter_start hcap count
    replace hstart : checkedAfter env key store maxRows count = 0 ∨
        2 ≤ checkedAfter env key store maxRows count := by
      omega
    obtain ⟨result, houtcome, hresult⟩ := cappedTick_outcome hkey hids hgood hstart
    refine ⟨result, houtcome, ?_⟩
    rw [hresult, if_pos (by omega), hbreak]

/-! ## Against the full pass -/

/-- In a log with a row in sight the ticks find what a pass over all rows finds. -/
theorem incremental_verification (hkey : env.chainKey = .ok key)
    (hids : (store.auditLog.map AuditRow.id).Nodup) (hrows : ∃ row ∈ store.auditLog, 0 ≤ row.id)
    (hcap : 2 ≤ maxRows) :
    ∃ full, (∀ pMaxRows, store.auditLog.length ≤ pMaxRows →
        verifyAuditChain env store.auditLog (some 0) pMaxRows = .ok full) ∧
      VerifiesIncrementally env store maxRows full := by
  obtain ⟨full, hfull, hbreak⟩ := verifyAuditChain_full hkey store.auditLog
  have hvisible : visibleRows store.auditLog ≠ [] := by
    obtain ⟨row, hrow, hid⟩ := hrows
    exact List.ne_nil_of_mem (mem_visibleRows.mpr ⟨hrow, hid⟩)
  have hpointer := pointerAfter_eq hkey hids hcap hvisible
  have hgood : ∀ count, checkedAfter env key store maxRows count ≤
      goodRows env key store.auditLog := checkedAfter_le hcap
  have hbound := fun count => (hgood count).trans (goodRows_le _)
  refine ⟨full, hfull, ?exists_row, ?monotone, ?advances, ?before_break, ?settles⟩
  case exists_row =>
    intro count id hid
    rw [hpointer] at hid
    obtain ⟨row, -, hrow, rfl⟩ := pointerAt_eq_some (hbound count) hid
    exact ⟨row, (mem_visibleRows.mp (List.mem_of_getElem? hrow)).1, rfl⟩
  case monotone =>
    intro count id hid
    rw [hpointer] at hid
    obtain ⟨row, hpos, hrow, rfl⟩ := pointerAt_eq_some (hbound count) hid
    have hgrow : checkedAfter env key store maxRows count ≤
        checkedAfter env key store maxRows (count + 1) := by
      rw [checkedAfter_succ]
      exact HashChain.le_resume hcap (hbound count)
    obtain ⟨row', hrow', hpointer'⟩ := exists_pointerAt (hpos.trans_le hgrow) (hbound (count + 1))
    exact ⟨row'.id, (hpointer _).trans hpointer', visibleRows_le hids hrow hrow' (by omega)⟩
  case advances =>
    intro count hrest hnext
    rw [hpointer] at hrest hnext
    rw [hbreak] at hnext
    have hgrow := lt_checkedAfter_succ hids hcap hrest hnext
    obtain ⟨row', hrow', hpointer'⟩ :=
      exists_pointerAt (Nat.zero_lt_of_lt hgrow) (hbound (count + 1))
    refine ⟨row'.id, (hpointer _).trans hpointer', fun id hid => ?_⟩
    rw [hpointer] at hid
    obtain ⟨row, hpos, hrow, rfl⟩ := pointerAt_eq_some (hbound count) hid
    exact visibleRows_lt hids hrow hrow' (by omega)
  case before_break =>
    intro count id brokenAtId hid hbroken
    rw [hpointer] at hid
    obtain ⟨row, hpos, hrow, rfl⟩ := pointerAt_eq_some (hbound count) hid
    rw [hbreak, fullBreak, Option.map_eq_some_iff] at hbroken
    obtain ⟨broken, hposition, rfl⟩ := hbroken
    have hbefore := hgood count
    exact visibleRows_lt hids hrow hposition (by omega)
  case settles =>
    -- one tick for each row in sight, and one more, is enough
    refine ⟨(visibleRows store.auditLog).length + 1, ?_⟩
    simp only [hpointer, hbreak]
    by_cases hall : (visibleRows store.auditLog).length ≤ goodRows env key store.auditLog
    · exact .inl (checkedAfter_settles_last hids hcap hvisible hall)
    · have hfirst : fullBreak env key store.auditLog = some _ :=
        Option.map_eq_some_iff.mpr ⟨_, List.getElem?_eq_getElem (not_le.mp hall), rfl⟩
      refine .inr ⟨_, hfirst, fun count hcount => ?_⟩
      exact cappedTick_settles_break hkey hids hcap hfirst hcount

/-- The second of the two rows is changed. -/
def auditRunChangedStore : AuditStore := ⟨auditRunChanged, none⟩

theorem incremental_verification_run :
    ∃ full, (∀ pMaxRows, auditRunChanged.length ≤ pMaxRows →
        verifyAuditChain .checksums auditRunChanged (some 0) pMaxRows = .ok full) ∧
      VerifiesIncrementally .checksums auditRunChangedStore 2 full := by
  have hids : auditRunChanged.map AuditRow.id = [1, 3] := rfl
  have hfirst : (1 : Int) ∈ auditRunChanged.map AuditRow.id := hids ▸ List.mem_cons_self
  obtain ⟨row, hrow, hid⟩ := List.mem_map.mp hfirst
  have hdistinct : (auditRunChanged.map AuditRow.id).Nodup := by
    rw [hids]
    decide
  have hvisible : 0 ≤ row.id := hid ▸ Int.one_nonneg
  exact @incremental_verification _ _ auditRunChangedStore _ rfl hdistinct
    ⟨row, hrow, hvisible⟩ le_rfl

/-- The only row has a negative id. -/
def auditRunNegative : AuditStore := ⟨[⟨-1, creditOf 1, none, []⟩], none⟩

theorem pointerAfter_negative (count : Nat) :
    pointerAfter .checksums auditRunNegative 2 count = none := by
  induction count with
  | zero => rfl
  | succ count ih =>
      rw [pointerAfter, Function.iterate_succ_apply']
      change (cappedTick _ _ _ (pointerAfter _ _ _ count)).2 = none
      rw [ih]
      rfl

/-- The full pass sees no row to break at, and the ticks see no row to point to. -/
theorem incremental_verification_fails :
    auditRunNegative.auditLog ≠ [] ∧
      ∃ full, (∀ pMaxRows, 1 ≤ pMaxRows →
          verifyAuditChain .checksums auditRunNegative.auditLog (some 0) pMaxRows = .ok full) ∧
        ¬ VerifiesIncrementally .checksums auditRunNegative 2 full := by
  refine ⟨List.cons_ne_nil _ _, ⟨0, 0, none⟩, fun pMaxRows hrows => ?_, fun hverifies => ?_⟩
  · cases pMaxRows <;> rfl
  · obtain ⟨settled, ⟨-, last, -, -, hpointer⟩ | ⟨brokenAtId, hbroken, -⟩⟩ := hverifies.settles
    · have hsome := hpointer settled le_rfl
      rw [pointerAfter_negative] at hsome
      cases hsome
    · cases hbroken

end DeathRoll
