import AgentHarness.Library.Keyset

/-!
# Walking through the pages

A walk fetches page after page, each behind the last row of the one before. The table may be another
one at every fetch; only the keys of its rows are apart.
-/

namespace AgentHarness.Library

set_option autoImplicit false

namespace Keyset

variable {Row Key : Type*} [LinearOrder Key] (key : Row → Key)

structure Page (Row : Type*) where
  items : List Row
  more : Bool
  deriving DecidableEq, Repr

/-- One row more than the page has is read, to see whether there is a next page. -/
def page (limit : Nat) (before : Option Key) (rows : List Row) : Page Row :=
  let found := select key (limit + 1) before rows
  ⟨found.take limit, limit < found.length⟩

/-- The rows behind the cursor, in order. -/
def behind (before : Option Key) (rows : List Row) : List Row :=
  newestFirst key (rows.filter fun row => before.all fun cursor => key row < cursor)

/-- The rows so far, and where the next page begins, if there is one. -/
structure Walk (Row Key : Type*) where
  yielded : List Row
  next : Option (Option Key)
  deriving DecidableEq, Repr

namespace Walk

def start : Walk Row Key := ⟨[], some none⟩

def fetch (limit : Nat) (rows : List Row) (walk : Walk Row Key) : Walk Row Key :=
  match walk.next with
  | none => walk
  | some before =>
      let found := page key limit before rows
      ⟨walk.yielded ++ found.items, if found.more then some (found.items.getLast?.map key) else none⟩

/-- The walk is over, or has come to the key or below it. -/
def Passed (position : Key) (walk : Walk Row Key) : Prop :=
  walk.next = none ∨ ∃ row ∈ walk.yielded, key row ≤ position

/-- What is left of the rows. -/
def remaining (rows : List Row) (walk : Walk Row Key) : List Row :=
  match walk.next with
  | none => []
  | some before => behind key before rows

/-- The cursor is the last row, and the rows come in decreasing order. -/
structure Ordered (walk : Walk Row Key) : Prop where
  decreasing : walk.yielded.Pairwise fun earlier later => key later < key earlier
  first : walk.next = some none → walk.yielded = []
  cursor : ∀ cursor, walk.next = some (some cursor) →
    (∃ row ∈ walk.yielded, key row = cursor) ∧ ∀ row ∈ walk.yielded, cursor ≤ key row

end Walk

/-! ## One page -/

variable {key} {rows left right : List Row} {limit : Nat} {before : Option Key}

theorem newest_first_strict (apart : Apart key rows) :
    (newestFirst key rows).Pairwise fun earlier later => key later < key earlier := by
  have unlike : (newestFirst key rows).Pairwise fun earlier later => key earlier ≠ key later :=
    (newest_first_perm rows).symm.pairwise apart fun differ => differ.symm
  apply ((newest_first_sorted rows).and unlike).imp
  intro earlier later both
  exact lt_of_le_of_ne both.1 both.2.symm

theorem newest_first_filter (apart : Apart key rows) (wanted : Row → Bool) :
    newestFirst key (rows.filter wanted) = (newestFirst key rows).filter wanted := by
  have same : (newestFirst key (rows.filter wanted)).Perm ((newestFirst key rows).filter wanted) :=
    (newest_first_perm _).trans ((newest_first_perm rows).filter wanted).symm
  apply same.eq_of_pairwise _ (newest_first_sorted _) ((newest_first_sorted rows).filter wanted)
  intro row other rowMem otherMem after before
  have inRows := (newest_first_perm rows).mem_iff.mp (List.mem_of_mem_filter (same.mem_iff.mp rowMem))
  have otherIn := (newest_first_perm rows).mem_iff.mp (List.mem_of_mem_filter otherMem)
  exact apart.eq inRows otherIn (le_antisymm before after)

theorem mem_behind {row : Row} :
    row ∈ behind key before rows ↔ row ∈ rows ∧ ∀ cursor ∈ before, key row < cursor := by
  rw [behind, (newest_first_perm _).mem_iff, List.mem_filter]
  cases before <;> simp

theorem behind_none : behind key none rows = newestFirst key rows := by
  simp [behind]

theorem behind_strict (before : Option Key) (apart : Apart key rows) :
    (behind key before rows).Pairwise fun earlier later => key later < key earlier :=
  newest_first_strict (apart.filter _)

theorem page_items : (page key limit before rows).items = (behind key before rows).take limit := by
  simp only [page, select, behind, List.take_take]
  congr 1
  omega

theorem page_more : (page key limit before rows).more = true ↔
    limit < (behind key before rows).length := by
  simp only [page, select, behind, List.length_take, decide_eq_true_eq]
  omega

theorem page_last (positive : 0 < limit) (more : (page key limit before rows).more = true) :
    ∃ last, (page key limit before rows).items.getLast? = some last := by
  have long := page_more.mp more
  have nonempty : (page key limit before rows).items ≠ [] := by
    rw [page_items]
    apply List.ne_nil_of_length_pos
    rw [List.length_take]
    omega
  exact ⟨_, List.getLast?_eq_some_getLast nonempty⟩

theorem mem_of_mem_page {row : Row} (member : row ∈ (page key limit before rows).items) :
    row ∈ rows := by
  rw [page_items] at member
  exact (mem_behind.mp (List.mem_of_mem_take member)).1

/-- Behind the last row of a page are the rows that the page leaves. -/
theorem behind_last (apart : Apart key rows) {front : List Row} {last : Row} {rest : List Row}
    (split : behind key before rows = front ++ last :: rest) :
    behind key (some (key last)) rows = rest := by
  have strict := behind_strict before apart
  rw [split, List.pairwise_append, List.pairwise_cons] at strict
  obtain ⟨_, ⟨lower, _⟩, higher⟩ := strict
  have whole : behind key (some (key last)) rows =
      (behind key before rows).filter fun row => decide (key row < key last) := by
    rw [behind, newest_first_filter apart, behind, newest_first_filter apart, List.filter_filter]
    apply List.filter_congr
    intro row _
    have within : ∀ cursor ∈ before, key last < cursor :=
      (mem_behind.mp (by rw [split]; simp : last ∈ behind key before rows)).2
    cases before with
    | none => simp
    | some cursor =>
        have lastBelow := within cursor rfl
        simp only [Option.all_some]
        by_cases lower : key row < key last
        · simp [lower, lower.trans lastBelow]
        · simp [lower]
  rw [whole, split, List.filter_append, List.filter_cons_of_neg (by simp)]
  have none_before : front.filter (fun row => decide (key row < key last)) = [] := by
    apply List.filter_eq_nil_iff.mpr
    intro row member
    have above := higher row member last List.mem_cons_self
    simpa using above.le
  have all_after : rest.filter (fun row => decide (key row < key last)) = rest := by
    apply List.filter_eq_self.mpr
    intro row member
    exact decide_eq_true (lower row member)
  rw [none_before, all_after, List.nil_append]

/-! ## One step of a walk -/

namespace Walk

variable {walk : Walk Row Key} {before : Option Key}

theorem fetch_of_next (isNext : walk.next = some before) :
    walk.fetch key limit rows =
      ⟨walk.yielded ++ (page key limit before rows).items,
        if (page key limit before rows).more then
          some ((page key limit before rows).items.getLast?.map key) else none⟩ := by
  rw [fetch, isNext]

/-- What has been yielded stays. -/
theorem mem_fetch {row : Row} (member : row ∈ walk.yielded) :
    row ∈ (walk.fetch key limit rows).yielded := by
  unfold fetch
  split
  · exact member
  · exact List.mem_append_left _ member

theorem fetch_congr (apart : Apart key left) (same : left.Perm right) :
    walk.fetch key limit left = walk.fetch key limit right := by
  unfold fetch page
  split
  · rfl
  · rw [select_congr (limit + 1) _ apart same]

/-- What a fetch does: it comes to the end, or leaves the rows behind the last one. -/
inductive Fetched (key : Row → Key) (limit : Nat) (rows : List Row) (walk : Walk Row Key)
    (before : Option Key) : Walk Row Key → Prop
  | last (short : (behind key before rows).length ≤ limit) :
      Fetched key limit rows walk before ⟨walk.yielded ++ behind key before rows, none⟩
  | more (front : List Row) (last : Row) (rest : List Row)
      (split : behind key before rows = front ++ last :: rest) (full : front.length + 1 = limit)
      (nonempty : rest ≠ []) (left : behind key (some (key last)) rows = rest) :
      Fetched key limit rows walk before
        ⟨walk.yielded ++ (front ++ [last]), some (some (key last))⟩

theorem fetch_cases (positive : 0 < limit) (apart : Apart key rows)
    (isNext : walk.next = some before) :
    Fetched key limit rows walk before (walk.fetch key limit rows) := by
  rw [fetch_of_next isNext, page_items]
  by_cases more : limit < (behind key before rows).length
  · rw [if_pos (page_more.mpr more)]
    have taken : ((behind key before rows).take limit).length = limit := by
      rw [List.length_take]
      omega
    obtain ⟨front, last, isTaken⟩ : ∃ front last,
        (behind key before rows).take limit = front ++ [last] := by
      rcases List.eq_nil_or_concat ((behind key before rows).take limit) with
        empty | ⟨front, last, isConcat⟩
      · rw [empty, List.length_nil] at taken
        omega
      · exact ⟨front, last, isConcat.trans List.concat_eq_append⟩
    have split : behind key before rows =
        front ++ last :: (behind key before rows).drop limit := by
      have whole := List.take_append_drop limit (behind key before rows)
      rw [isTaken, List.append_assoc, List.singleton_append] at whole
      exact whole.symm
    rw [isTaken, List.getLast?_concat, Option.map_some]
    apply Fetched.more front last _ split
    · rw [isTaken, List.length_append, List.length_singleton] at taken
      exact taken
    · apply List.ne_nil_of_length_pos
      rw [List.length_drop]
      omega
    · exact behind_last apart split
  · rw [if_neg (fun isMore => more (page_more.mp isMore)), List.take_of_length_le (by omega)]
    exact .last (by omega)

/-- The rows of a page are behind the cursor, and the walk goes on in order. -/
theorem fetch_ordered (positive : 0 < limit) (apart : Apart key rows) (ordered : walk.Ordered key) :
    (walk.fetch key limit rows).Ordered key := by
  cases isNext : walk.next with
  | none =>
      rw [fetch, isNext]
      exact ordered
  | some before =>
      have strict := behind_strict before apart
      have below : ∀ earlier ∈ walk.yielded, ∀ later ∈ behind key before rows,
          key later < key earlier := by
        intro earlier member later laterMem
        cases before with
        | none =>
            rw [ordered.first isNext] at member
            cases member
        | some cursor =>
            exact ((mem_behind.mp laterMem).2 cursor rfl).trans_le
              ((ordered.cursor cursor isNext).2 earlier member)
      have fetched := fetch_cases positive apart isNext
      generalize walk.fetch key limit rows = next at *
      cases fetched with
      | last short =>
          constructor
          · exact List.pairwise_append.mpr ⟨ordered.decreasing, strict, below⟩
          · intro impossible
            cases impossible
          · intro cursor impossible
            cases impossible
      | more front last rest split full nonempty left =>
          have inOrder := List.pairwise_append.mpr ⟨ordered.decreasing, strict, below⟩
          rw [split, ← List.singleton_append, ← List.append_assoc front, ← List.append_assoc]
            at inOrder
          have taken := (List.pairwise_append.mp inOrder).1
          constructor
          · exact taken
          · intro impossible
            cases impossible
          · intro cursor isCursor
            cases isCursor
            constructor
            · exact ⟨last, by simp, rfl⟩
            · rw [← List.append_assoc] at taken ⊢
              intro row member
              rcases List.mem_append.mp member with earlier | isLast
              · exact ((List.pairwise_append.mp taken).2.2 row earlier last
                  List.mem_cons_self).le
              · rw [List.mem_singleton.mp isLast]

/-- A row the walk could not have come to before is found by the fetch that passes it. -/
theorem fetch_complete (positive : 0 < limit) (apart : Apart key rows) (ordered : walk.Ordered key)
    {row : Row} (member : row ∈ rows) (ahead : ¬ walk.Passed key (key row))
    (passed : (walk.fetch key limit rows).Passed key (key row)) :
    row ∈ (walk.fetch key limit rows).yielded := by
  cases isNext : walk.next with
  | none => exact absurd (.inl isNext) ahead
  | some before =>
      have unreached : ∀ other ∈ walk.yielded, key row < key other := by
        intro other otherMem
        by_contra reached
        exact ahead (.inr ⟨other, otherMem, not_lt.mp reached⟩)
      have isBehind : row ∈ behind key before rows := by
        apply mem_behind.mpr
        apply And.intro member
        intro cursor isCursor
        cases isCursor
        obtain ⟨other, otherMem, same⟩ := (ordered.cursor cursor isNext).1
        rw [← same]
        exact unreached other otherMem
      have fetched := fetch_cases positive apart isNext
      generalize walk.fetch key limit rows = next at *
      cases fetched with
      | last short => exact List.mem_append_right _ isBehind
      | more front last rest split full nonempty left =>
          have strict := behind_strict before apart
          rw [split] at isBehind strict
          obtain ⟨other, otherMem, atOrBelow⟩ : ∃ other ∈ walk.yielded ++ (front ++ [last]),
              key other ≤ key row := by
            rcases passed with impossible | reached
            · cases impossible
            · exact reached
          apply List.mem_append_right
          rw [← List.singleton_append, ← List.append_assoc] at isBehind strict
          rcases List.mem_append.mp isBehind with taken | leftBehind
          · exact taken
          · -- a row below the page is below every row the walk has come to
            rcases List.mem_append.mp otherMem with earlier | onPage
            · exact absurd atOrBelow (not_le.mpr (unreached other earlier))
            · have lower := (List.pairwise_append.mp strict).2.2 other onPage row leftBehind
              exact absurd atOrBelow (not_le.mpr lower)

/-- While the rows stay, a fetch moves rows from what remains to what is yielded. -/
theorem fetch_remaining (positive : 0 < limit) (apart : Apart key rows) :
    (walk.fetch key limit rows).yielded ++ (walk.fetch key limit rows).remaining key rows =
      walk.yielded ++ walk.remaining key rows := by
  cases isNext : walk.next with
  | none =>
      rw [fetch, isNext]
  | some before =>
      have fetched := fetch_cases positive apart isNext
      generalize walk.fetch key limit rows = next at *
      cases fetched with
      | last short => simp [remaining, isNext]
      | more front last rest split full nonempty left =>
          simp only [remaining, isNext, left, split]
          simp

/-- Every fetch but the last takes a whole page and leaves something. -/
theorem fetch_progress (positive : 0 < limit) (apart : Apart key rows) (unfinished : walk.next ≠ none)
    (goesOn : (walk.fetch key limit rows).next ≠ none) :
    (walk.fetch key limit rows).yielded.length = walk.yielded.length + limit ∧
      (walk.fetch key limit rows).remaining key rows ≠ [] := by
  obtain ⟨before, isNext⟩ := Option.ne_none_iff_exists'.mp unfinished
  have fetched := fetch_cases positive apart isNext
  generalize walk.fetch key limit rows = next at *
  cases fetched with
  | last short => exact absurd rfl goesOn
  | more front last rest split full nonempty left =>
      constructor
      · simp only [List.length_append, List.length_singleton]
        omega
      · simpa only [remaining, left] using nonempty

end Walk

end Keyset

end AgentHarness.Library
