import Mathlib.Data.List.Infix
import Mathlib.Data.Set.Function

/-! # Hash chains

Every row of a chained log carries a digest of the row before it and of its own
content. Checking a log finds the first row that does not. When the digest does
not collide on what the two logs hash, a chained log all of whose digests occur
in another chained log is a prefix of it: nothing can be changed, removed from
the middle or inserted without a fresh digest.
-/

namespace Relational

/-- How the rows of a log carry contents and digests, and how a digest is taken. -/
structure HashChain (ρ κ δ : Type*) where
  content : ρ → κ
  hash : ρ → δ
  digest : Option δ → κ → δ

namespace HashChain

variable {ρ κ δ : Type*} (chain : HashChain ρ κ δ)

/-- What the digests of the rows are taken of, after a row with digest `prev`. -/
def links : Option δ → List ρ → List (Option δ × κ)
  | _, [] => []
  | prev, row :: rest => (prev, chain.content row) :: links (some (chain.hash row)) rest

/-- Every row carries the digest of the row before it and of its content. -/
def Chained : Option δ → List ρ → Prop
  | _, [] => True
  | prev, row :: rest =>
      chain.hash row = chain.digest prev (chain.content row) ∧
        Chained (some (chain.hash row)) rest

/-- The digest that a row after `rows` links to. -/
def headAfter (prev : Option δ) (rows : List ρ) : Option δ :=
  (rows.getLast?.map chain.hash).or prev

/-- The first row that does not carry its digest. -/
def firstBroken [DecidableEq δ] : Option δ → List ρ → Option ρ
  | _, [] => none
  | prev, row :: rest =>
      if chain.hash row = chain.digest prev (chain.content row) then
        firstBroken (some (chain.hash row)) rest
      else some row

/-- How many rows come before the first one that does not carry its digest. -/
def goodLength [DecidableEq δ] : Option δ → List ρ → Nat
  | _, [] => 0
  | prev, row :: rest =>
      if chain.hash row = chain.digest prev (chain.content row) then
        goodLength (some (chain.hash row)) rest + 1
      else 0

/-! ## Equations -/

@[simp] theorem links_nil (prev : Option δ) : chain.links prev [] = [] := rfl

@[simp] theorem links_cons (prev : Option δ) (row : ρ) (rest : List ρ) :
    chain.links prev (row :: rest) =
      (prev, chain.content row) :: chain.links (some (chain.hash row)) rest := rfl

@[simp] theorem chained_nil (prev : Option δ) : chain.Chained prev [] := trivial

@[simp] theorem chained_cons (prev : Option δ) (row : ρ) (rest : List ρ) :
    chain.Chained prev (row :: rest) ↔
      chain.hash row = chain.digest prev (chain.content row) ∧
        chain.Chained (some (chain.hash row)) rest := Iff.rfl

@[simp] theorem headAfter_nil (prev : Option δ) : chain.headAfter prev [] = prev := rfl

@[simp] theorem headAfter_concat (prev : Option δ) (rows : List ρ) (row : ρ) :
    chain.headAfter prev (rows ++ [row]) = some (chain.hash row) := by
  simp [headAfter]

theorem headAfter_cons (prev : Option δ) (row : ρ) (rest : List ρ) :
    chain.headAfter prev (row :: rest) = chain.headAfter (some (chain.hash row)) rest := by
  cases hlast : rest.getLast? <;> simp [headAfter, List.getLast?_cons, hlast]

theorem headAfter_append (prev : Option δ) (first second : List ρ) :
    chain.headAfter prev (first ++ second) = chain.headAfter (chain.headAfter prev first) second := by
  induction first generalizing prev with
  | nil => rfl
  | cons row rest ih => rw [List.cons_append, headAfter_cons, headAfter_cons, ih]

theorem chained_append (prev : Option δ) (first second : List ρ) :
    chain.Chained prev (first ++ second) ↔
      chain.Chained prev first ∧ chain.Chained (chain.headAfter prev first) second := by
  induction first generalizing prev with
  | nil => simp
  | cons row rest ih => simp [ih, headAfter_cons, and_assoc]

theorem links_append (prev : Option δ) (first second : List ρ) :
    chain.links prev (first ++ second) =
      chain.links prev first ++ chain.links (chain.headAfter prev first) second := by
  induction first generalizing prev with
  | nil => rfl
  | cons row rest ih => simp [ih, headAfter_cons]

variable {chain}

/-- A chained log goes on being one when a row is chained off its end. -/
theorem Chained.concat {prev : Option δ} {rows : List ρ} {row : ρ} (h : chain.Chained prev rows)
    (hrow : chain.hash row = chain.digest (chain.headAfter prev rows) (chain.content row)) :
    chain.Chained prev (rows ++ [row]) := by
  rw [chained_append]
  exact ⟨h, hrow, trivial⟩

theorem Chained.initial {prev : Option δ} {rows first : List ρ} (h : chain.Chained prev rows)
    (hfirst : first <+: rows) : chain.Chained prev first := by
  obtain ⟨second, rfl⟩ := hfirst
  exact ((chained_append _ _ _ _).mp h).1

/-- A chained log is chained for another digest of its rows when the digests agree at
every row. -/
theorem Chained.iff_agree {κ' : Type*} {other : HashChain ρ κ' δ} {prev : Option δ}
    {rows : List ρ} {agree : ρ → Prop} (h : chain.Chained prev rows)
    (hhash : other.hash = chain.hash)
    (hagree : ∀ before row after, rows = before ++ row :: after →
      (chain.digest (chain.headAfter prev before) (chain.content row) =
        other.digest (chain.headAfter prev before) (other.content row) ↔ agree row)) :
    other.Chained prev rows ↔ ∀ row ∈ rows, agree row := by
  induction rows generalizing prev with
  | nil => simp
  | cons row rest ih =>
      obtain ⟨hrow, hrest⟩ := h
      have hfirst := hagree [] row rest rfl
      rw [headAfter_nil] at hfirst
      have htail := ih hrest fun before later after hsplit => by
        have hlater := hagree (row :: before) later after (by rw [hsplit]; rfl)
        rwa [headAfter_cons] at hlater
      rw [chained_cons, hhash, hrow, hfirst, ← hrow, htail, List.forall_mem_cons]

/-- The digests and contents of the rows are all that a chained log depends on. -/
theorem Chained.congr {other : HashChain ρ κ δ} {prev : Option δ} {rows : List ρ}
    (h : chain.Chained prev rows) (hhash : other.hash = chain.hash)
    (hdigest : other.digest = chain.digest)
    (hcontent : ∀ row ∈ rows, other.content row = chain.content row) :
    other.Chained prev rows := by
  have hagree : other.Chained prev rows ↔ ∀ row ∈ rows, True := by
    apply h.iff_agree hhash
    rintro before row after rfl
    rw [hdigest, hcontent row (List.mem_append_right _ List.mem_cons_self)]
    exact iff_of_true rfl trivial
  exact hagree.mpr fun _ _ => trivial

/-! ## Checking -/

section Check

variable [DecidableEq δ]

theorem firstBroken_eq_none {prev : Option δ} {rows : List ρ} :
    chain.firstBroken prev rows = none ↔ chain.Chained prev rows := by
  induction rows generalizing prev with
  | nil => simp [firstBroken]
  | cons row rest ih =>
      by_cases hrow : chain.hash row = chain.digest prev (chain.content row)
      · simp [firstBroken, ih, ← hrow]
      · simp [firstBroken, hrow]

/-- The first broken row splits the log: the rows before it are chained. -/
theorem firstBroken_eq_some {prev : Option δ} {rows : List ρ} {row : ρ}
    (hbroken : chain.firstBroken prev rows = some row) :
    ∃ before after, rows = before ++ row :: after ∧ chain.Chained prev before ∧
      chain.hash row ≠ chain.digest (chain.headAfter prev before) (chain.content row) := by
  induction rows generalizing prev with
  | nil => simp [firstBroken] at hbroken
  | cons head rest ih =>
      by_cases hhead : chain.hash head = chain.digest prev (chain.content head)
      · rw [firstBroken, if_pos hhead] at hbroken
        obtain ⟨before, after, hsplit, hchained, hrow⟩ := ih hbroken
        refine ⟨head :: before, after, by rw [hsplit]; rfl, ⟨hhead, hchained⟩, ?_⟩
        rwa [headAfter_cons]
      · rw [firstBroken, if_neg hhead, Option.some.injEq] at hbroken
        subst hbroken
        exact ⟨[], rest, rfl, trivial, hhead⟩

/-- No row before the first broken one is broken. -/
theorem firstBroken_first {prev : Option δ} {rows before after : List ρ} {row other : ρ}
    (hbroken : chain.firstBroken prev rows = some row) (hsplit : rows = before ++ other :: after)
    (hother : chain.hash other ≠
      chain.digest (chain.headAfter prev before) (chain.content other)) :
    ∃ front rest, rows = front ++ row :: rest ∧ other ∈ row :: rest := by
  obtain ⟨front, rest, hrows, hfront, -⟩ := firstBroken_eq_some hbroken
  refine ⟨front, rest, hrows, ?_⟩
  rw [hsplit] at hrows
  rcases List.append_eq_append_iff.mp hrows with ⟨middle, rfl, hmiddle⟩ | ⟨middle, rfl, hmiddle⟩
  · cases middle with
    | nil => exact (List.cons.inj hmiddle).1 ▸ List.mem_cons_self
    | cons head tail =>
        obtain ⟨rfl, -⟩ := List.cons.inj hmiddle
        have hgood := ((chained_append _ _ _ _).mp hfront).2.1
        exact absurd hgood hother
  · exact hmiddle ▸ List.mem_append_right _ List.mem_cons_self

theorem goodLength_le (prev : Option δ) (rows : List ρ) :
    chain.goodLength prev rows ≤ rows.length := by
  induction rows generalizing prev with
  | nil => exact le_rfl
  | cons row rest ih =>
      rw [goodLength]
      split
      · exact Nat.succ_le_succ (ih _)
      · exact Nat.zero_le _

/-- A pass over so many rows from somewhere in the good part, seeded with the digest of
the row before, stops where a pass over everything does, if it gets that far. -/
theorem firstBroken_window {prev : Option δ} {rows : List ρ} {start : Nat} (count : Nat)
    (hstart : start ≤ chain.goodLength prev rows) :
    chain.firstBroken (chain.headAfter prev (rows.take start)) ((rows.drop start).take count) =
      if chain.goodLength prev rows < start + count then rows[chain.goodLength prev rows]?
      else none := by
  induction rows generalizing prev start count with
  | nil => simp [firstBroken, goodLength]
  | cons row rest ih =>
      cases start with
      | zero =>
          cases count with
          | zero => simp [firstBroken]
          | succ count =>
              have hrest := @ih (some (chain.hash row)) 0 count (Nat.zero_le _)
              simp only [List.take_zero, headAfter_nil, List.drop_zero, Nat.zero_add] at hrest ⊢
              rw [List.take_succ_cons, firstBroken, goodLength]
              split
              · rw [hrest, List.getElem?_cons_succ]
                simp only [Nat.add_lt_add_iff_right]
              · simp
      | succ start =>
          rw [goodLength] at hstart ⊢
          split at hstart
          next hrow =>
            have hrest := ih count (Nat.le_of_succ_le_succ hstart)
            rw [if_pos hrow, List.take_succ_cons, headAfter_cons, List.drop_succ_cons, hrest,
              List.getElem?_cons_succ]
            simp only [Nat.add_right_comm start 1 count, Nat.add_lt_add_iff_right]
          next => exact absurd hstart (Nat.not_succ_le_zero start)

theorem firstBroken_eq_getElem? (prev : Option δ) (rows : List ρ) :
    chain.firstBroken prev rows = rows[chain.goodLength prev rows]? := by
  have hall := firstBroken_window (rows.length + 1) (Nat.zero_le (chain.goodLength prev rows))
  have hgood := chain.goodLength_le prev rows
  rwa [List.take_zero, headAfter_nil, List.drop_zero, Nat.zero_add, if_pos (by omega),
    List.take_of_length_le (Nat.le_succ _)] at hall

/-! ### Checking in windows -/

variable (chain) in
/-- How many rows are checked after one more pass over at most `cap` rows that begins at the
last row checked, and counts only when it finds no broken row. -/
def resume (cap : Nat) (prev : Option δ) (rows : List ρ) (checked : Nat) : Nat :=
  if min (checked - 1 + cap) rows.length ≤ chain.goodLength prev rows then
    min (checked - 1 + cap) rows.length
  else checked

variable {cap : Nat} {prev : Option δ} {rows : List ρ} {checked : Nat}

theorem le_resume (hcap : 2 ≤ cap) (hchecked : checked ≤ rows.length) :
    checked ≤ chain.resume cap prev rows checked := by
  rw [resume]
  split <;> omega

theorem resume_le_goodLength (hchecked : checked ≤ chain.goodLength prev rows) :
    chain.resume cap prev rows checked ≤ chain.goodLength prev rows := by
  rw [resume]
  split <;> assumption

/-- A window without a broken row takes the check further unless all rows are checked. -/
theorem lt_resume (hcap : 2 ≤ cap) (hrest : checked < rows.length)
    (hwindow : min (checked - 1 + cap) rows.length ≤ chain.goodLength prev rows) :
    checked < chain.resume cap prev rows checked := by
  rw [resume, if_pos hwindow]
  omega

/-- Where the check does not go on, all rows are checked or the window has a broken row. -/
theorem resume_eq_self (hcap : 2 ≤ cap) (hgood : checked ≤ chain.goodLength prev rows)
    (hsettled : chain.resume cap prev rows checked = checked) :
    checked = rows.length ∨
      chain.goodLength prev rows < min (checked - 1 + cap) rows.length := by
  by_contra! hneither
  have hlength := chain.goodLength_le prev rows
  have hlt : checked < chain.resume cap prev rows checked :=
    lt_resume hcap (by omega) hneither.2
  exact hlt.ne' hsettled

/-- The check stops going on after at most as many windows as there are rows. -/
theorem resume_iterate_settled (hcap : 2 ≤ cap) (count : Nat) :
    let checked := (chain.resume cap prev rows)^[count] 0
    checked ≤ chain.goodLength prev rows ∧
      (count ≤ checked ∨ chain.resume cap prev rows checked = checked) := by
  induction count with
  | zero => exact ⟨Nat.zero_le _, .inl le_rfl⟩
  | succ count ih =>
      simp only [Function.iterate_succ_apply'] at ih ⊢
      obtain ⟨hgood, hcount⟩ := ih
      have hle := hgood.trans (chain.goodLength_le prev rows)
      refine ⟨resume_le_goodLength hgood, ?_⟩
      have hgrow : (chain.resume cap prev rows)^[count] 0 ≤
          chain.resume cap prev rows ((chain.resume cap prev rows)^[count] 0) :=
        le_resume hcap hle
      rcases hgrow.lt_or_eq with hlt | heq
      · rcases hcount with hcount | hsettled
        · exact .inl (hcount.trans_lt hlt)
        · exact absurd hsettled hlt.ne'
      · right
        rw [← heq, ← heq]

end Check

/-! ## Tampering -/

/-- The links of a part of a log are links of the log. -/
theorem mem_links_of_split {prev : Option δ} {before after : List ρ} {row : ρ} :
    (chain.headAfter prev before, chain.content row) ∈
      chain.links prev (before ++ row :: after) := by
  rw [links_append, links_cons]
  exact List.mem_append_right _ List.mem_cons_self

/-- A link leads to the row before, or to what was there before the log. -/
theorem mem_links {prev : Option δ} {rows : List ρ} {link : Option δ × κ}
    (hlink : link ∈ chain.links prev rows) :
    (link.1 = prev ∨ ∃ row ∈ rows, link.1 = some (chain.hash row)) ∧
      ∃ row ∈ rows, link.2 = chain.content row := by
  induction rows generalizing prev with
  | nil => simp at hlink
  | cons head rest ih =>
      rw [links_cons, List.mem_cons] at hlink
      rcases hlink with rfl | hlink
      · exact ⟨.inl rfl, head, List.mem_cons_self, rfl⟩
      · obtain ⟨hprev, row, hrow, hcontent⟩ := ih hlink
        refine ⟨.inr ?_, row, List.mem_cons_of_mem _ hrow, hcontent⟩
        rcases hprev with hhead | ⟨before, hbefore, hhash⟩
        · exact ⟨head, List.mem_cons_self, hhead⟩
        · exact ⟨before, List.mem_cons_of_mem _ hbefore, hhash⟩

/-- In a chained log every row's digest is taken of one of its links. -/
theorem Chained.exists_link {prev : Option δ} {rows : List ρ} (h : chain.Chained prev rows)
    {row : ρ} (hrow : row ∈ rows) :
    ∃ link ∈ chain.links prev rows, chain.hash row = chain.digest link.1 link.2 := by
  obtain ⟨before, after, rfl⟩ := List.append_of_mem hrow
  exact ⟨_, mem_links_of_split, ((chained_append _ _ _ _).mp h).2.1⟩

variable (chain) in
/-- The digest does not collide on the given links. -/
def Separates (links : Set (Option δ × κ)) : Prop :=
  Set.InjOn (fun link => chain.digest link.1 link.2) links

/-- In a chained log a digest occurs after one number of rows only. -/
theorem length_eq_of_headAfter_eq {rows first second : List ρ} (hrows : chain.Chained none rows)
    (hinj : chain.Separates {link | link ∈ chain.links none rows})
    (hfirst : first <+: rows) (hsecond : second <+: rows)
    (hhead : chain.headAfter none first = chain.headAfter none second) :
    first.length = second.length := by
  induction first using List.reverseRecOn generalizing second with
  | nil =>
      cases second using List.reverseRecOn with
      | nil => rfl
      | append_singleton before row => simp at hhead
  | append_singleton first row ih =>
      cases second using List.reverseRecOn with
      | nil => simp at hhead
      | append_singleton second other =>
          have hrow := hrows.initial hfirst
          have hother := hrows.initial hsecond
          obtain ⟨after, hsplit⟩ := hfirst
          obtain ⟨after', hsplit'⟩ := hsecond
          rw [chained_append, chained_cons] at hrow hother
          rw [List.append_assoc, List.singleton_append] at hsplit hsplit'
          simp only [headAfter_concat, Option.some.injEq] at hhead
          rw [hrow.2.1, hother.2.1] at hhead
          have hmem : (chain.headAfter none first, chain.content row) ∈ chain.links none rows :=
            hsplit ▸ mem_links_of_split
          have hmem' : (chain.headAfter none second, chain.content other) ∈
              chain.links none rows :=
            hsplit' ▸ mem_links_of_split
          have hlink := Prod.mk.inj (hinj hmem hmem' hhead)
          have hlength := ih ⟨row :: after, hsplit⟩ ⟨other :: after', hsplit'⟩ hlink.1
          rw [List.length_append, List.length_append, hlength]
          rfl

theorem headAfter_congr {prev : Option δ} {rows rows' : List ρ}
    (hsame : rows.map chain.hash = rows'.map chain.hash) :
    chain.headAfter prev rows = chain.headAfter prev rows' := by
  rw [headAfter, headAfter, ← List.getLast?_map, hsame, List.getLast?_map]

variable (chain) in
/-- What a row shows: its content and its digest. -/
def entry (row : ρ) : κ × δ := (chain.content row, chain.hash row)

/-- A chained log made of the digests of a chained log is a prefix of it. -/
theorem prefix_of_digests {original log : List ρ} (horiginal : chain.Chained none original)
    (hlog : chain.Chained none log)
    (hinj : chain.Separates
      {link | link ∈ chain.links none original ∨ link ∈ chain.links none log})
    (hmem : ∀ row ∈ log, chain.hash row ∈ original.map chain.hash) :
    log.map chain.entry <+: original.map chain.entry := by
  induction log using List.reverseRecOn with
  | nil => exact List.nil_prefix
  | append_singleton front row ih =>
      have hparts := hlog
      rw [chained_append, chained_cons] at hparts
      obtain ⟨hfront, hrow, -⟩ := hparts
      have hlinks : (chain.headAfter none front, chain.content row) ∈
          chain.links none (front ++ [row]) := mem_links_of_split
      have hinitial : front.map chain.entry <+: original.map chain.entry := by
        apply ih hfront
        · apply hinj.mono
          rintro link (hlink | hlink)
          · exact .inl hlink
          · right
            exact (links_append _ _ _ _).symm ▸ List.mem_append_left _ hlink
        · exact fun other hother => hmem other (List.mem_append_left _ hother)
      have hmatch : front.map chain.entry = (original.take front.length).map chain.entry := by
        rw [List.map_take]
        simpa using List.prefix_iff_eq_take.mp hinitial
      -- the row's digest is one of the original's, so both were taken of the same link
      obtain ⟨source, hsource, hhash⟩ := List.mem_map.mp
        (hmem row (List.mem_append_right _ List.mem_cons_self))
      obtain ⟨before, after, rfl⟩ := List.append_of_mem hsource
      have hbefore := ((chained_append _ _ _ _).mp horiginal).2.1
      have hdigest := hhash
      rw [hbefore, hrow] at hdigest
      have hlink := Prod.mk.inj (hinj (.inl mem_links_of_split) (.inr hlinks) hdigest)
      have hhead : chain.headAfter none ((before ++ source :: after).take front.length) =
          chain.headAfter none before := by
        rw [hlink.1]
        apply headAfter_congr
        have hhashes := congrArg (List.map Prod.snd) hmatch
        rw [List.map_map, List.map_map] at hhashes
        exact hhashes.symm
      have hlength := length_eq_of_headAfter_eq horiginal (hinj.mono fun link => .inl)
        (List.take_prefix _ _) (List.prefix_append _ _) hhead
      have htake : (before ++ source :: after).take front.length = before :=
        (List.prefix_of_prefix_length_le (List.take_prefix _ _) (List.prefix_append _ _)
          hlength.le).eq_of_length hlength
      rw [htake] at hmatch
      refine ⟨after.map chain.entry, ?_⟩
      simp [hmatch, entry, hhash, hlink.2]

end HashChain

end Relational
