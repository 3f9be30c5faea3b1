import Corx.Base.ListHeader
import Corx.Http

/-!
# List headers

A list header may stand on several lines, and means the list of the elements of all of them
(`flattened`). The proxy extends such a header by `appendElement`: it reads the first line, adds
its element behind it, and writes the result in the place of all lines. `flattened_appendElement`
is what that leaves of the list, and `flattened_appendElement_eq_iff` says when it is the whole
list.
-/

namespace Corx

/-- The elements of a line of a list header; a line that is not text has none. -/
def HeaderValue.elements (line : HeaderValue) : List Str :=
  line.toStr.elim [] Str.listElements

/-- A text that can be written as one element of a list header. -/
structure IsElement (s : Str) : Prop where
  chars : ∀ c ∈ s, IsHeaderChar c
  single : Str.listElements s = [s]

/-- An element is no empty text. -/
theorem IsElement.ne_nil {s : Str} (h : IsElement s) : s ≠ [] := by
  rintro rfl
  exact absurd h.single (by decide)

namespace HeaderMap

variable {headers : HeaderMap} {name : HeaderName} {element : Str}

/-- The elements of all lines of a list header, in order. -/
def flattened (headers : HeaderMap) (name : HeaderName) : List Str :=
  (headers.getAll name).flatMap HeaderValue.elements

/-- The elements of the first line of a list header. -/
def firstElements (headers : HeaderMap) (name : HeaderName) : List Str :=
  (headers.get name).elim [] HeaderValue.elements

/-- The elements of the lines after the first. -/
def laterElements (headers : HeaderMap) (name : HeaderName) : List Str :=
  (headers.getAll name).tail.flatMap HeaderValue.elements

/-- Every line of the header is visible ASCII. -/
def IsVisible (headers : HeaderMap) (name : HeaderName) : Prop :=
  ∀ line ∈ headers.getAll name, line.toStr.isSome = true

instance : Decidable (headers.IsVisible name) :=
  decidable_of_iff ((headers.getAll name).all fun line => line.toStr.isSome) List.all_eq_true

/-- Write the first line with an element behind it in the place of all lines; a first line that is
not text is given up. -/
def appendElement (headers : HeaderMap) (name : HeaderName) (element : Str) : HeaderMap :=
  headers.insertStr name
    ((headers.getStr name).elim element fun line => line ++ ", ".toList ++ element)

/-- The list begins with the elements of the first line. -/
theorem flattened_eq (headers : HeaderMap) (name : HeaderName) :
    headers.flattened name = headers.firstElements name ++ headers.laterElements name := by
  unfold flattened firstElements laterElements MultiMap.get
  cases headers.getAll name with
  | nil => rfl
  | cons line lines => rfl

/-- The list of a header depends on its lines only. -/
theorem flattened_congr {headers' : HeaderMap}
    (h : headers.getAll name = headers'.getAll name) :
    headers.flattened name = headers'.flattened name := by
  rw [flattened, h, flattened]

/-- The elements of a first line that is text. -/
theorem firstElements_of_getStr {line : Str} (h : headers.getStr name = some line) :
    headers.firstElements name = Str.listElements line := by
  obtain ⟨value, hget, htext⟩ := Option.bind_eq_some_iff.mp h
  rw [firstElements, hget, Option.elim_some, HeaderValue.elements, htext, Option.elim_some]

/-- A header of visible lines that has no first line has no lines. -/
theorem IsVisible.getAll_eq_nil (h : headers.IsVisible name) (hget : headers.getStr name = none) :
    headers.getAll name = [] := by
  unfold getStr MultiMap.get at hget
  cases hlines : headers.getAll name with
  | nil => rfl
  | cons line lines =>
    have htext := h line (hlines ▸ List.mem_cons_self)
    rw [hlines, List.head?_cons, Option.bind_some] at hget
    rw [hget] at htext
    cases htext

/-- Text of header characters is written as the one line of its header. -/
theorem getAll_insertStr_of_isHeaderChar (headers : HeaderMap) (name : HeaderName) {s : Str}
    (h : ∀ c ∈ s, IsHeaderChar c) :
    ∃ line, (headers.insertStr name s).getAll name = [line] ∧ line.toStr = some s := by
  obtain ⟨line, hvalue, htext⟩ := HeaderValue.toStr_fromStr h
  refine ⟨line, ?_, htext⟩
  rw [getAll_insertStr_self, hvalue, Option.elim_some]

/-- The line that is written for an element consists of header characters. -/
theorem isHeaderChar_appended (headers : HeaderMap) (name : HeaderName)
    (helement : IsElement element) :
    ∀ c ∈ (headers.getStr name).elim element fun line => line ++ ", ".toList ++ element,
      IsHeaderChar c := by
  cases hget : headers.getStr name with
  | none => exact helement.chars
  | some line =>
    obtain ⟨value, -, htext⟩ := Option.bind_eq_some_iff.mp hget
    intro c hc
    rcases List.mem_append.mp hc with hc | hc
    · rcases List.mem_append.mp hc with hc | hc
      · exact HeaderValue.isHeaderChar_of_toStr htext c hc
      · exact List.all_iff_forall_prop.mp
          (by decide : ", ".toList.all fun c => decide (IsHeaderChar c)) c hc
    · exact helement.chars c hc

/-- Appending an element leaves one line, which is visible. -/
theorem exists_line_appendElement (headers : HeaderMap) (name : HeaderName)
    (helement : IsElement element) :
    ∃ line, (headers.appendElement name element).getAll name = [line] ∧
      line.toStr.isSome = true := by
  obtain ⟨line, hlines, htext⟩ := getAll_insertStr_of_isHeaderChar headers name
    (isHeaderChar_appended headers name helement)
  exact ⟨line, hlines, htext ▸ Option.isSome_some⟩

/-- An appended element is an element of the first line. -/
theorem mem_firstElements_appendElement (helement : IsElement element) :
    element ∈ (headers.appendElement name element).firstElements name := by
  rw [appendElement, firstElements_of_getStr
    (getStr_insertStr (isHeaderChar_appended headers name helement))]
  cases headers.getStr name with
  | none => rw [Option.elim_none, helement.single, List.mem_singleton]
  | some line =>
    rw [Option.elim_some, Str.listElements_append, helement.single]
    exact List.mem_append_right _ (List.mem_singleton_self element)

/-- Appending an element to a header of visible lines keeps the elements of the first line. -/
theorem flattened_appendElement (hvisible : headers.IsVisible name)
    (helement : IsElement element) :
    (headers.appendElement name element).flattened name =
      headers.firstElements name ++ [element] := by
  obtain ⟨line, hlines, htext⟩ := getAll_insertStr_of_isHeaderChar headers name
    (isHeaderChar_appended headers name helement)
  rw [flattened, appendElement, hlines, List.flatMap_singleton, HeaderValue.elements, htext,
    Option.elim_some]
  cases hget : headers.getStr name with
  | none =>
    rw [Option.elim_none, helement.single, firstElements, MultiMap.get, hvisible.getAll_eq_nil hget]
    rfl
  | some first =>
    rw [Option.elim_some, Str.listElements_append, helement.single, firstElements_of_getStr hget]

/-- Appending an element extends the list exactly if the lines after the first have no elements. -/
theorem flattened_appendElement_eq_iff (hvisible : headers.IsVisible name)
    (helement : IsElement element) :
    (headers.appendElement name element).flattened name = headers.flattened name ++ [element] ↔
      headers.laterElements name = [] := by
  rw [flattened_appendElement hvisible helement, flattened_eq, List.append_left_inj,
    List.self_eq_append_right]

end HeaderMap

end Corx
