import AgentHarness.Adapter.OrderService

/-!
# Order identifiers on both sides

The adapter counts UTF-16 units and strips the blanks of Java; the execution service counts code
points and strips the blanks of Python. The two guards part on long identifiers with characters of
two units, and on the four blanks that only Python knows.
-/

namespace AgentHarness.Gate

open AgentHarness.Library AgentHarness.Adapter AgentHarness.Executions

set_option autoImplicit false

/-- `cancelOrder` of the adapter goes on to the authorizer. -/
def letThrough (orderId : String) : Prop := invalidOrderId orderId = false

/-- `validate_cancel_order` accepts the identifier as the only argument. -/
def accepted (orderId : String) : Prop :=
  ∃ validated, validateCancelOrder [("orderId", .str orderId)] = .ok validated

/-- The first or the last character is one of these. -/
def edge (test : Char → Bool) (orderId : String) : Bool :=
  orderId.toList.head?.any test || orderId.toList.getLast?.any test

/-- What both guards refuse for the same reason. -/
def refusedAlike (orderId : String) : Bool :=
  orderId = "" || 128 < orderId.length || edge Text.javaWhitespace orderId ||
    orderId.toList.any fun c => c.toNat < 32

/-- The blanks of `str.strip` that `Character.isWhitespace` leaves out. -/
def onlyPythonSpace (c : Char) : Bool :=
  c.toNat = 0x85 || c.toNat = 0xA0 || c.toNat = 0x2007 || c.toNat = 0x202F

/-! ## The characters -/

theorem python_space_eq (c : Char) :
    Text.pythonSpace c = (Text.javaWhitespace c || onlyPythonSpace c) := by
  unfold Text.pythonSpace Text.javaWhitespace onlyPythonSpace
  rw [Bool.eq_iff_iff]
  simp only [Bool.or_eq_true, Bool.and_eq_true, decide_eq_true_eq]
  omega

theorem strip_eq_self_iff_edge (blank : Char → Bool) (orderId : String) :
    orderId = Text.strip blank orderId ↔ edge blank orderId = false := by
  rw [eq_comm, Text.strip_eq_self_iff]
  unfold edge
  cases orderId.toList.head? <;> cases orderId.toList.getLast? <;> simp

theorem edge_or (first second : Char → Bool) (orderId : String) :
    edge (fun c => first c || second c) orderId = (edge first orderId || edge second orderId) := by
  unfold edge
  cases orderId.toList.head? with
  | none => cases orderId.toList.getLast? <;> simp
  | some head =>
      cases orderId.toList.getLast? with
      | none => simp
      | some last =>
          simp only [Option.any_some]
          cases first head <;> cases second head <;> cases first last <;> cases second last <;> rfl

theorem length_le_utf16_length (text : String) : text.length ≤ utf16Length text := by
  have counted : ∀ chars : List Char,
      chars.length ≤ (chars.map fun c => if c.toNat < 0x10000 then 1 else 2).sum := by
    intro chars
    induction chars with
    | nil => simp
    | cons c chars ih =>
        simp only [List.map_cons, List.sum_cons, List.length_cons]
        split_ifs <;> omega
  have bounded := counted text.toList
  rwa [String.length_toList] at bounded

/-- A text without a blank at its edge is not blank. -/
theorem not_blank_of_edge (blank : Char → Bool) {orderId : String} (nonempty : orderId ≠ "")
    (clear : edge blank orderId = false) : Text.isBlank blank orderId = false := by
  unfold Text.isBlank edge at *
  cases chars : orderId.toList with
  | nil => exact absurd (String.toList_eq_nil_iff.mp chars) nonempty
  | cons first rest =>
      rw [chars] at clear
      simp only [List.head?_cons, Option.any_some, Bool.or_eq_false_iff] at clear
      simp [clear.1]

/-! ## The guards -/

theorem let_through_iff (orderId : String) :
    letThrough orderId ↔ refusedAlike orderId = false ∧ utf16Length orderId ≤ 128 := by
  unfold letThrough invalidOrderId refusedAlike
  simp only [Bool.or_eq_false_iff, decide_eq_false_iff_not, not_lt, ne_eq, not_not,
    strip_eq_self_iff_edge]
  constructor
  · rintro ⟨⟨⟨notBlank, short⟩, clear⟩, printable⟩
    refine ⟨⟨⟨⟨?_, ?_⟩, clear⟩, printable⟩, short⟩
    · intro empty
      subst empty
      cases notBlank
    · exact (length_le_utf16_length orderId).trans short
  · rintro ⟨⟨⟨⟨nonempty, _⟩, clear⟩, printable⟩, short⟩
    exact ⟨⟨⟨not_blank_of_edge _ nonempty clear, short⟩, clear⟩, printable⟩

theorem accepted_iff_valid (orderId : String) :
    accepted orderId ↔ validOrderId orderId = true := by
  unfold accepted validateCancelOrder
  have onlyKey : onlyOrderId [("orderId", .str orderId)] = true := by simp [onlyOrderId]
  simp only [onlyKey, Bool.not_true, Bool.false_eq_true, if_false, Json.lookup, if_true]
  cases validOrderId orderId <;> simp

theorem accepted_iff (orderId : String) :
    accepted orderId ↔ refusedAlike orderId = false ∧ edge onlyPythonSpace orderId = false := by
  have spaces : Text.pythonSpace = fun c => Text.javaWhitespace c || onlyPythonSpace c :=
    funext python_space_eq
  rw [accepted_iff_valid]
  unfold validOrderId refusedAlike
  simp only [Bool.and_eq_true, decide_eq_true_eq, Bool.or_eq_false_iff, decide_eq_false_iff_not,
    not_lt, strip_eq_self_iff_edge, spaces, edge_or, ne_eq]
  have printable : (orderId.toList.all fun c => decide (32 ≤ c.toNat)) = true ↔
      (orderId.toList.any fun c => decide (c.toNat < 32)) = false := by
    simp
  rw [printable]
  tauto

/-- The guards agree exactly on the identifiers that both refuse alike and on those that have a
blank of Python at an edge if and only if they are too long in UTF-16 units. -/
theorem order_id_agreement_iff (orderId : String) :
    (letThrough orderId ↔ accepted orderId) ↔
      refusedAlike orderId = true ∨
        (edge onlyPythonSpace orderId = true ↔ 128 < utf16Length orderId) := by
  rw [let_through_iff, accepted_iff]
  cases refusedAlike orderId with
  | true => simp
  | false =>
      cases edge onlyPythonSpace orderId <;> simp

/-- A leading no-break space gets through the adapter alone, and 65 characters outside the Basic
Multilingual Plane through the service alone. -/
theorem order_id_guards_differ :
    ¬ (letThrough "\u00A0o-1" ↔ accepted "\u00A0o-1") ∧
      ¬ (letThrough (String.ofList (List.replicate 65 (Char.ofNat 0x1F600))) ↔
        accepted (String.ofList (List.replicate 65 (Char.ofNat 0x1F600)))) := by
  rw [let_through_iff, accepted_iff, let_through_iff, accepted_iff]
  decide +kernel

end AgentHarness.Gate
