import Mathlib.Data.List.DropRight

/-!
# Surrounding blanks

Languages do not agree on what a blank is. Stripping is a function of that choice, and a text that
one choice leaves alone is left alone by every choice that knows fewer of its characters.
-/

namespace AgentHarness.Library

set_option autoImplicit false

namespace Text

def strip (blank : Char → Bool) (text : String) : String :=
  String.ofList ((text.toList.dropWhile blank).rdropWhile blank)

def isBlank (blank : Char → Bool) (text : String) : Bool :=
  text.toList.all blank

/-- `str.isspace` of Python. -/
def pythonSpace (c : Char) : Bool :=
  let code := c.toNat
  (9 ≤ code && code ≤ 13) || (28 ≤ code && code ≤ 32) || code = 0x85 || code = 0xA0 ||
    code = 0x1680 || (0x2000 ≤ code && code ≤ 0x200A) || code = 0x2028 || code = 0x2029 ||
    code = 0x202F || code = 0x205F || code = 0x3000

/-- `Character.isWhitespace` of Java. -/
def javaWhitespace (c : Char) : Bool :=
  let code := c.toNat
  (9 ≤ code && code ≤ 13) || (28 ≤ code && code ≤ 32) || code = 0x1680 ||
    (0x2000 ≤ code && code ≤ 0x2006) || (0x2008 ≤ code && code ≤ 0x200A) || code = 0x2028 ||
    code = 0x2029 || code = 0x205F || code = 0x3000

/-- What `String.trim` of Java removes. -/
def javaTrimmed (c : Char) : Bool := c.toNat ≤ 32

theorem mem_of_mem_strip {blank : Char → Bool} {text : String} {c : Char}
    (member : c ∈ (strip blank text).toList) : c ∈ text.toList := by
  rw [strip, String.toList_ofList] at member
  have inner := ( List.rdropWhile_prefix blank (text.toList.dropWhile blank)).subset member
  exact (List.dropWhile_suffix blank).subset inner

theorem strip_eq_self_iff (blank : Char → Bool) (text : String) :
    strip blank text = text ↔
      (∀ c ∈ text.toList.head?, blank c = false) ∧
        ∀ c ∈ text.toList.getLast?, blank c = false := by
  rw [strip, ← String.toList_inj, String.toList_ofList]
  generalize text.toList = chars
  constructor
  · intro unchanged
    have kept : (chars.dropWhile blank).length = chars.length := by
      have inner := ( List.rdropWhile_prefix blank (chars.dropWhile blank)).length_le
      have outer : (chars.dropWhile blank).length ≤ chars.length :=
        (List.dropWhile_suffix blank).length_le
      rw [unchanged] at inner
      omega
    have front : chars.dropWhile blank = chars :=
      (List.dropWhile_suffix blank).eq_of_length kept
    rw [front] at unchanged
    rw [List.dropWhile_eq_self_iff] at front
    rw [List.rdropWhile_eq_self_iff] at unchanged
    cases chars with
    | nil => simp
    | cons first rest =>
        constructor
        · intro c isHead
          cases isHead
          have kept := front (by simp)
          rw [List.getElem_cons_zero] at kept
          simpa using kept
        · intro c isLast
          have last := unchanged (by simp)
          rw [List.getLast?_eq_getLast_of_ne_nil (by simp)] at isLast
          cases isLast
          simpa using last
  · rintro ⟨headKept, lastKept⟩
    cases chars with
    | nil => simp
    | cons first rest =>
        have front : (first :: rest).dropWhile blank = first :: rest := by
          rw [List.dropWhile_eq_self_iff]
          intro _
          simpa using headKept first rfl
        rw [front, List.rdropWhile_eq_self_iff]
        intro nonempty
        have last := lastKept _ (List.getLast?_eq_getLast_of_ne_nil nonempty)
        simpa using last

/-- A text without surrounding blanks has none either under a choice that knows fewer. -/
theorem strip_of_fewer {blank fewer : Char → Bool} {text : String}
    (stripped : strip blank text = text)
    (known : ∀ c ∈ text.toList, fewer c = true → blank c = true) : strip fewer text = text := by
  rw [strip_eq_self_iff] at stripped ⊢
  have clear : ∀ c ∈ text.toList, blank c = false → fewer c = false := by
    intro c member kept
    by_contra isFewer
    rw [known c member (by simpa using isFewer)] at kept
    cases kept
  constructor
  · intro c isHead
    exact clear c (List.mem_of_mem_head? isHead) (stripped.1 c isHead)
  · intro c isLast
    exact clear c (List.mem_of_mem_getLast? isLast) (stripped.2 c isLast)

theorem strip_strip (blank : Char → Bool) (text : String) :
    strip blank (strip blank text) = strip blank text := by
  simp only [strip, String.toList_ofList]
  congr 1
  generalize text.toList = chars
  have front : ((chars.dropWhile blank).rdropWhile blank).dropWhile blank =
      (chars.dropWhile blank).rdropWhile blank := by
    rw [List.dropWhile_eq_self_iff]
    intro nonempty
    have first := List.dropWhile_get_zero_not blank chars
      (nonempty.trans_le ( List.rdropWhile_prefix blank (chars.dropWhile blank)).length_le)
    have same := ( List.rdropWhile_prefix blank (chars.dropWhile blank)).getElem nonempty
    simpa [same] using first
  rw [front, List.rdropWhile_idempotent]

/-- Blanks around a text make no difference. -/
theorem strip_surrounded (blank : Char → Bool) (left core right : List Char)
    (leftBlank : ∀ c ∈ left, blank c = true) (rightBlank : ∀ c ∈ right, blank c = true) :
    strip blank (String.ofList (left ++ core ++ right)) = strip blank (String.ofList core) := by
  simp only [strip, String.toList_ofList]
  congr 1
  rw [List.append_assoc, List.dropWhile_append_of_pos leftBlank, List.dropWhile_append]
  by_cases blankCore : (core.dropWhile blank).isEmpty = true
  · have rightGone : right.dropWhile blank = [] := List.dropWhile_eq_nil_iff.mpr rightBlank
    rw [if_pos blankCore, rightGone, List.isEmpty_iff.mp blankCore]
  · have reversed : ∀ c ∈ right.reverse, blank c = true := by
      intro c member
      exact rightBlank c (List.mem_reverse.mp member)
    rw [if_neg blankCore, List.rdropWhile, List.reverse_append,
      List.dropWhile_append_of_pos reversed, List.rdropWhile]

/-- A text is what is left of it, between blanks. -/
theorem exists_surrounded (blank : Char → Bool) (text : String) :
    ∃ left right, text.toList = left ++ (strip blank text).toList ++ right ∧
      (∀ c ∈ left, blank c = true) ∧ ∀ c ∈ right, blank c = true := by
  let inner := text.toList.dropWhile blank
  have whole : text.toList = text.toList.takeWhile blank ++ inner :=
    List.takeWhile_append_dropWhile.symm
  have back : inner.rdropWhile blank ++ inner.rtakeWhile blank = inner :=
    List.rdropWhile_append_rtakeWhile
  refine ⟨text.toList.takeWhile blank, inner.rtakeWhile blank, ?_, ?_, ?_⟩
  · rw [strip, String.toList_ofList, List.append_assoc, back]
    exact whole
  · exact fun c member => List.mem_takeWhile_imp member
  · exact fun c member => List.mem_rtakeWhile_imp member

theorem strip_strip_of_fewer {blank fewer : Char → Bool} (text : String)
    (known : ∀ c, fewer c = true → blank c = true) :
    strip blank (strip fewer text) = strip blank text := by
  obtain ⟨left, right, whole, leftBlank, rightBlank⟩ := exists_surrounded fewer text
  have surrounded := strip_surrounded blank left (strip fewer text).toList right
    (fun c member => known c (leftBlank c member)) fun c member => known c (rightBlank c member)
  rw [← whole, String.ofList_toList, String.ofList_toList] at surrounded
  exact surrounded.symm

theorem strip_length_le (blank : Char → Bool) (text : String) :
    (strip blank text).length ≤ text.length := by
  have inner := ( List.rdropWhile_prefix blank (text.toList.dropWhile blank)).length_le
  have outer := List.IsSuffix.length_le (List.dropWhile_suffix blank : text.toList.dropWhile blank <:+ text.toList)
  rw [strip, String.length_ofList, ← String.length_toList]
  omega

theorem strip_eq_empty_iff (blank : Char → Bool) (text : String) :
    strip blank text = "" ↔ isBlank blank text = true := by
  constructor
  · intro gone
    obtain ⟨left, right, whole, leftBlank, rightBlank⟩ := exists_surrounded blank text
    rw [gone, String.toList_empty, List.append_nil] at whole
    rw [isBlank, whole, List.all_append, Bool.and_eq_true, List.all_eq_true, List.all_eq_true]
    exact ⟨leftBlank, rightBlank⟩
  · intro blanks
    have gone : text.toList.dropWhile blank = [] :=
      List.dropWhile_eq_nil_iff.mpr (List.all_eq_true.mp blanks)
    rw [strip, gone, List.rdropWhile_nil, String.ofList_nil]

def startsWith (front text : String) : Bool := front.toList.isPrefixOf text.toList

def drop (count : Nat) (text : String) : String := String.ofList (text.toList.drop count)

/-- `str.removeprefix` of Python. -/
def removePrefix (front text : String) : String :=
  if startsWith front text then drop front.toList.length text else text

@[simp] theorem starts_with_append (front text : String) : startsWith front (front ++ text) = true := by
  simp [startsWith]

theorem drop_append (front text : String) : drop front.toList.length (front ++ text) = text := by
  simp [drop]

theorem remove_prefix_append (front text : String) : removePrefix front (front ++ text) = text := by
  rw [removePrefix, starts_with_append, if_pos rfl, drop_append]

/-- `str.split` of Python with a separator of one character. -/
def split (separator : Char) (text : String) : List String :=
  (text.toList.splitOn separator).map String.ofList

/-- `String.split` of Java with a pattern that is one plain character: empty strings at the end are
left out, unless the pattern does not occur. -/
def javaSplit (separator : Char) (text : String) : List String :=
  let pieces := split separator text
  if pieces.length = 1 then pieces else pieces.rdropWhile fun piece => piece = ""

theorem split_intercalate (separator : Char) (parts : List String) (nonempty : parts ≠ [])
    (clear : ∀ part ∈ parts, separator ∉ part.toList) :
    split separator ((String.singleton separator).intercalate parts) = parts := by
  unfold split
  rw [String.toList_intercalate, String.toList_singleton, List.splitOn_intercalate separator]
  · rw [List.map_map]
    simp [Function.comp_def]
  · intro chars member
    obtain ⟨part, isPart, rfl⟩ := List.mem_map.mp member
    exact clear part isPart
  · simpa using nonempty

theorem mem_of_mem_split_on {separator : Char} {whole chars : List Char}
    (isPart : chars ∈ whole.splitOn separator) : ∀ c ∈ chars, c ∈ whole ∧ c ≠ separator := by
  induction whole generalizing chars with
  | nil =>
      simp only [List.splitOn_nil, List.mem_singleton] at isPart
      simp [isPart]
  | cons first rest ih =>
      intro c member
      rw [List.splitOn_cons_eq_if_modifyHead] at isPart
      by_cases found : (first == separator) = true
      · rw [if_pos found] at isPart
        rcases List.mem_cons.mp isPart with rfl | later
        · cases member
        · have inner := ih later c member
          exact ⟨List.mem_cons_of_mem first inner.1, inner.2⟩
      · rw [if_neg found] at isPart
        have other : first ≠ separator := fun same => found (by simp [same])
        cases pieces : rest.splitOn separator with
        | nil => exact absurd pieces (List.splitOn_ne_nil separator rest)
        | cons piece later =>
            rw [pieces, List.modifyHead_cons] at isPart
            rcases List.mem_cons.mp isPart with rfl | inLater
            · rcases List.mem_cons.mp member with rfl | inPiece
              · exact ⟨List.mem_cons_self, other⟩
              · have inner := ih (pieces ▸ List.mem_cons_self) c inPiece
                exact ⟨List.mem_cons_of_mem first inner.1, inner.2⟩
            · have inner := ih (pieces ▸ List.mem_cons_of_mem piece inLater) c member
              exact ⟨List.mem_cons_of_mem first inner.1, inner.2⟩

/-- A piece is a part of the text without the separator. -/
theorem mem_of_mem_split {separator : Char} {text part : String}
    (member : part ∈ split separator text) :
    ∀ c ∈ part.toList, c ∈ text.toList ∧ c ≠ separator := by
  obtain ⟨chars, isPart, rfl⟩ := List.mem_map.mp member
  rw [String.toList_ofList]
  exact mem_of_mem_split_on isPart

theorem split_on_append_left {separator : Char} (left core : List Char)
    (clear : separator ∉ left) :
    (left ++ core).splitOn separator = (core.splitOn separator).modifyHead (left ++ ·) := by
  induction left with
  | nil =>
      rw [List.nil_append]
      cases core.splitOn separator <;> rfl
  | cons c left ih =>
      have differ : c ≠ separator := fun same => clear (same ▸ List.mem_cons_self)
      have other : (c == separator) = false := beq_eq_false_iff_ne.mpr differ
      have inner := ih fun member => clear (List.mem_cons_of_mem c member)
      rw [List.cons_append, List.splitOn_cons_eq_if_modifyHead, other, inner]
      cases core.splitOn separator <;> rfl

/-- What is appended after the last separator is appended to the last piece. -/
theorem split_on_append_right {separator : Char} (core right : List Char)
    (clear : separator ∉ right) :
    ∃ pieces last, core.splitOn separator = pieces ++ [last] ∧
      (core ++ right).splitOn separator = pieces ++ [last ++ right] := by
  induction core with
  | nil =>
      refine ⟨[], [], by simp, ?_⟩
      rw [List.nil_append, List.splitOn_eq_singleton clear]
      rfl
  | cons c core ih =>
      obtain ⟨pieces, last, before, after⟩ := ih
      rw [List.cons_append, List.splitOn_cons_eq_if_modifyHead,
        List.splitOn_cons_eq_if_modifyHead, before, after]
      by_cases found : (c == separator) = true
      · rw [if_pos found, if_pos found]
        exact ⟨[] :: pieces, last, rfl, rfl⟩
      · rw [if_neg found, if_neg found]
        cases pieces with
        | nil => exact ⟨[], c :: last, rfl, rfl⟩
        | cons first pieces => exact ⟨(c :: first) :: pieces, last, rfl, rfl⟩

/-- Blanks around a text do not change its pieces beyond the blanks around them. -/
theorem map_strip_split_surrounded {blank : Char → Bool} {separator : Char}
    (kept : blank separator = false) (left core right : List Char)
    (leftBlank : ∀ c ∈ left, blank c = true) (rightBlank : ∀ c ∈ right, blank c = true) :
    (split separator (String.ofList (left ++ core ++ right))).map (strip blank) =
      (split separator (String.ofList core)).map (strip blank) := by
  have clear (blanks : List Char) (all : ∀ c ∈ blanks, blank c = true) : separator ∉ blanks := by
    intro member
    rw [all separator member] at kept
    cases kept
  obtain ⟨pieces, last, before, after⟩ :=
    split_on_append_right core right (clear right rightBlank)
  have padded (first : List Char) :
      strip blank (String.ofList (left ++ first)) = strip blank (String.ofList first) := by
    simpa using strip_surrounded blank left first [] leftBlank (by simp)
  have trailing : strip blank (String.ofList (last ++ right)) = strip blank (String.ofList last) := by
    simpa using strip_surrounded blank [] last right (by simp) rightBlank
  simp only [split, String.toList_ofList, List.append_assoc,
    split_on_append_left left _ (clear left leftBlank), before, after]
  cases pieces with
  | nil =>
      simp only [List.nil_append, List.modifyHead_cons, List.map_cons, List.map_nil, padded,
        trailing]
  | cons first pieces =>
      simp only [List.cons_append, List.modifyHead_cons, List.map_cons, List.map_append,
        List.map_nil, padded, trailing]

theorem map_strip_split_strip {blank fewer : Char → Bool} {separator : Char}
    (kept : blank separator = false) (known : ∀ c, fewer c = true → blank c = true)
    (text : String) :
    (split separator (strip fewer text)).map (strip blank) =
      (split separator text).map (strip blank) := by
  obtain ⟨left, right, whole, leftBlank, rightBlank⟩ := exists_surrounded fewer text
  have surrounded := map_strip_split_surrounded kept left (strip fewer text).toList right
    (fun c member => known c (leftBlank c member)) fun c member => known c (rightBlank c member)
  rw [← whole, String.ofList_toList, String.ofList_toList] at surrounded
  exact surrounded.symm

/-- Java leaves no piece out when the last one has more than blanks. -/
theorem java_split_eq (separator : Char) (text : String)
    (kept : ∀ piece ∈ split separator text, piece ≠ "") :
    javaSplit separator text = split separator text := by
  unfold javaSplit
  dsimp only
  split
  · rfl
  · rw [List.rdropWhile_eq_self_iff]
    intro nonempty
    simpa using kept _ (List.getLast_mem nonempty)

theorem mem_intercalate_list {Element : Type} {separator : List Element}
    {parts : List (List Element)} {c : Element} (member : c ∈ separator.intercalate parts) :
    c ∈ separator ∨ ∃ part ∈ parts, c ∈ part := by
  induction parts with
  | nil => cases member
  | cons part parts ih =>
      cases parts with
      | nil =>
          rw [List.intercalate_singleton] at member
          exact .inr ⟨part, List.mem_singleton_self part, member⟩
      | cons next parts =>
          simp only [List.intercalate_cons_cons, List.mem_append] at member
          rcases member with (inPart | inSeparator) | later
          · exact .inr ⟨part, List.mem_cons_self, inPart⟩
          · exact .inl inSeparator
          · rcases ih later with inSeparator | ⟨found, isPart, inFound⟩
            · exact .inl inSeparator
            · exact .inr ⟨found, List.mem_cons_of_mem part isPart, inFound⟩

theorem mem_intercalate {separator : String} {parts : List String} {c : Char}
    (member : c ∈ (separator.intercalate parts).toList) :
    c ∈ separator.toList ∨ ∃ part ∈ parts, c ∈ part.toList := by
  rw [String.toList_intercalate] at member
  rcases mem_intercalate_list member with inSeparator | ⟨_, isPart, inPart⟩
  · exact .inl inSeparator
  · obtain ⟨part, found, rfl⟩ := List.mem_map.mp isPart
    exact .inr ⟨part, found, inPart⟩

end Text

end AgentHarness.Library
