import AgentHarness.Gate.OrderIdentifiers
import AgentHarness.Library.JavaText
import AgentHarness.Library.Uri
import Mathlib.Data.Set.Insert

/-!
# The paths of orders

What the order system makes of a request once dot segments are removed. `RestClient` encodes all but
the unreserved characters of an identifier, so it stays one segment; the guards leave out that the
dot is unreserved, and reading a status has no guard.
-/

namespace AgentHarness.Gate

open AgentHarness.Library AgentHarness.Adapter

set_option autoImplicit false

inductive OrderAction where
  | cancel
  | status
  deriving DecidableEq, Repr

/-- The paths of `application.yml`. -/
def pathTemplate : OrderAction → String
  | .cancel => "/api/orders/{orderId}/cancel"
  | .status => "/api/orders/{orderId}/status"

/-- The path `HttpOrderGateway` requests. -/
def requestPath (action : OrderAction) (orderId : JavaString) : List Char :=
  Uri.expand (pathTemplate action).toList (Uri.encode orderId.getBytes)

/-- The path without dot segments. -/
def endpoint (action : OrderAction) (orderId : JavaString) : List Char :=
  Uri.removeDotSegments (requestPath action orderId)

/-- The request is for the order: one non-empty segment stands for the variable of the template and
is read back as the identifier. -/
def Addresses (action : OrderAction) (orderId : JavaString) : Prop :=
  ∃ segment, segment ≠ [] ∧ '/' ∉ segment ∧
    endpoint action orderId = Uri.expand (pathTemplate action).toList segment ∧
    ∃ text, (Uri.decode segment).bind Utf8.decode = some text ∧
      JavaString.ofString text = orderId

/-- A text that is neither empty nor a dot segment. -/
def Addressable (orderId : JavaString) : Prop :=
  ∃ text, JavaString.ofString text = orderId ∧ text ≠ "" ∧ text ≠ "." ∧ text ≠ ".."

/-! ## Segments -/

def lastSegment : OrderAction → List Char
  | .cancel => "cancel".toList
  | .status => "status".toList

theorem expand_template (action : OrderAction) (segment : List Char) :
    Uri.expand (pathTemplate action).toList segment =
      Uri.absolute ["api".toList, "orders".toList, segment, lastSegment action] := by
  cases action <;> simp [pathTemplate, Uri.expand, Uri.absolute, lastSegment]

theorem text_of_encoded {text plain : String}
    (same : Uri.encode (Utf8.encode text) = Uri.encode (Utf8.encode plain)) : text = plain := by
  have decoded := congrArg Utf8.decode (Uri.encode_injective same)
  rwa [Utf8.decode_encode, Utf8.decode_encode, Option.some.injEq] at decoded

/-- The encoded text is dropped or cut only if the text is a dot segment itself. -/
theorem encoded_plain {text : String} (notDot : text ≠ ".") (notDots : text ≠ "..") :
    Uri.isPlain (Uri.encode (Utf8.encode text)) := by
  refine ⟨Uri.slash_not_mem_encode _, ?_, ?_⟩
  · intro dot
    have encoded : Uri.encode (Utf8.encode ".") = ['.'] := by decide +kernel
    exact notDot (text_of_encoded (dot.trans encoded.symm))
  · intro dots
    have encoded : Uri.encode (Utf8.encode "..") = ['.', '.'] := by decide +kernel
    exact notDots (text_of_encoded (dots.trans encoded.symm))

theorem encoded_nonempty {text : String} (nonempty : text ≠ "") :
    Uri.encode (Utf8.encode text) ≠ [] := by
  intro empty
  exact nonempty (text_of_encoded empty)

theorem request_path_of_text (action : OrderAction) (text : String) :
    requestPath action (JavaString.ofString text) =
      Uri.absolute ["api".toList, "orders".toList, Uri.encode (Utf8.encode text),
        lastSegment action] := by
  rw [requestPath, JavaString.get_bytes_of_string, expand_template]

theorem endpoint_of_text (action : OrderAction) {text : String} (notDot : text ≠ ".")
    (notDots : text ≠ "..") :
    endpoint action (JavaString.ofString text) = requestPath action (JavaString.ofString text) := by
  rw [endpoint, request_path_of_text]
  apply Uri.remove_dot_segments_plain
  intro segment member
  simp only [List.mem_cons, List.not_mem_nil, or_false] at member
  have fixed : Uri.isPlain "api".toList ∧ Uri.isPlain "orders".toList ∧
      Uri.isPlain (lastSegment action) := by
    cases action <;> simp [Uri.isPlain, lastSegment]
  rcases member with rfl | rfl | rfl | rfl
  · exact fixed.1
  · exact fixed.2.1
  · exact encoded_plain notDot notDots
  · exact fixed.2.2

/-! ## The order resource -/

theorem addresses_of_addressable (action : OrderAction) {orderId : JavaString}
    (addressable : Addressable orderId) : Addresses action orderId := by
  have ⟨text, isText, nonempty, notDot, notDots⟩ := addressable
  refine ⟨Uri.encode (Utf8.encode text), encoded_nonempty nonempty, Uri.slash_not_mem_encode _,
    ?_, text, ?_, isText⟩
  · rw [← isText, endpoint_of_text action notDot notDots, requestPath,
      JavaString.get_bytes_of_string]
  · rw [Uri.decode_encode, Option.bind_some, Utf8.decode_encode]

theorem length_expanded (action : OrderAction) (segment : List Char) :
    (Uri.expand (pathTemplate action).toList segment).length = 19 + segment.length := by
  rw [expand_template]
  cases action <;> simp [Uri.absolute, lastSegment] <;> omega

/-- A dot segment takes at least itself away, and the empty text adds nothing. -/
theorem short_endpoint (action : OrderAction) {text : String}
    (special : text ∈ ["", ".", ".."]) :
    (endpoint action (JavaString.ofString text)).length ≤ 19 := by
  simp only [List.mem_cons, List.not_mem_nil, or_false] at special
  cases action <;> rcases special with rfl | rfl | rfl <;> decide +kernel

theorem addressable_of_addresses {action : OrderAction} {orderId : JavaString}
    (addresses : Addresses action orderId) : Addressable orderId := by
  have ⟨segment, nonempty, _, reached, text, _, isText⟩ := addresses
  have long : 19 < (endpoint action orderId).length := by
    have positive := List.length_pos_of_ne_nil nonempty
    rw [reached, length_expanded]
    omega
  have regular : text ∉ ["", ".", ".."] := by
    intro special
    have short := short_endpoint action special
    rw [isText] at short
    omega
  simp only [List.mem_cons, List.not_mem_nil, or_false, not_or] at regular
  exact ⟨text, isText, regular⟩

theorem expand_injective {action : OrderAction} {segment other : List Char}
    (same : Uri.expand (pathTemplate action).toList segment =
      Uri.expand (pathTemplate action).toList other) : segment = other := by
  rw [expand_template, expand_template] at same
  cases action <;> simpa [Uri.absolute, lastSegment] using same

/-- Two identifiers that address an order at one endpoint are one. -/
theorem same_of_endpoint {action : OrderAction} {orderId other : JavaString}
    (addresses : Addresses action orderId) (otherAddresses : Addresses action other)
    (same : endpoint action orderId = endpoint action other) : orderId = other := by
  have ⟨segment, _, _, reached, text, read, isText⟩ := addresses
  have ⟨otherSegment, _, _, otherReached, otherText, otherRead, isOther⟩ := otherAddresses
  have segments : segment = otherSegment :=
    expand_injective (reached.symm.trans (same.trans otherReached))
  rw [segments, otherRead, Option.some.injEq] at read
  rw [← isText, ← isOther, read]

/-- Identifiers of the adapter stay on the order resource and apart from each other exactly if they
are texts that are neither empty nor dot segments; of those `cancelOrder` lets through, these are all
but the two dot segments. -/
theorem order_paths_stay_iff (action : OrderAction) (ids : Set JavaString) :
    (((∀ orderId ∈ ids, Addresses action orderId) ∧
        ∀ orderId ∈ ids, ∀ other ∈ ids,
          endpoint action orderId = endpoint action other → orderId = other) ↔
      ∀ orderId ∈ ids, Addressable orderId) ∧
    ∀ orderId, letThrough orderId →
      (Addressable (JavaString.ofString orderId) ↔ orderId ≠ "." ∧ orderId ≠ "..") := by
  constructor
  · constructor
    · intro stay orderId member
      exact addressable_of_addresses (stay.1 orderId member)
    · intro addressable
      constructor
      · intro orderId member
        exact addresses_of_addressable action (addressable orderId member)
      · intro orderId member other otherMember same
        exact same_of_endpoint (addresses_of_addressable action (addressable orderId member))
          (addresses_of_addressable action (addressable other otherMember)) same
  · intro orderId passed
    have nonempty : orderId ≠ "" := by
      rintro rfl
      revert passed
      unfold letThrough
      decide +kernel
    constructor
    · intro addressable
      have ⟨text, isText, _, notDot, notDots⟩ := addressable
      rw [JavaString.of_string_injective isText] at notDot notDots
      exact ⟨notDot, notDots⟩
    · intro regular
      exact ⟨orderId, rfl, nonempty, regular⟩

/-- Both guards let the dot segments through, and the cancellation reaches `/api/cancel`. -/
theorem dot_segments_leave_order :
    letThrough ".." ∧ accepted ".." ∧
      endpoint .cancel (JavaString.ofString "..") = "/api/cancel".toList ∧
      ¬ Addresses .cancel (JavaString.ofString "..") ∧
      endpoint .status (JavaString.ofString "") = "/api/orders//status".toList ∧
      ¬ Addresses .status (JavaString.ofString "") := by
  refine ⟨?_, ?_, by decide +kernel, ?_, by decide +kernel, ?_⟩
  · rw [let_through_iff]
    decide +kernel
  · rw [accepted_iff]
    decide +kernel
  · intro addresses
    have ⟨text, isText, _, _, notDots⟩ := addressable_of_addresses addresses
    exact notDots (JavaString.of_string_injective isText)
  · intro addresses
    have ⟨text, isText, nonempty, _⟩ := addressable_of_addresses addresses
    exact nonempty (JavaString.of_string_injective isText)

end AgentHarness.Gate
