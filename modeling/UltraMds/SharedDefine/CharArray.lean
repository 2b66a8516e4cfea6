import Mathlib.Data.List.TakeWhile
import Mathlib.Tactic

/-!
# Character arrays

The feed and the tick carry their texts in fixed arrays of `char`, which is a signed byte on the
platforms the program is built for.  A `std::string` that comes from the configuration is a
Lean `String`; `chars` gives its bytes, and texts of the two kinds are compared by their bytes.

* `strnlen`, `stdString`: the reading of an array up to its first NUL, as the code does it;
* `cText`: the same text said without lengths, the NUL-truncated array;
* `strcpy`: an array that holds a given text.
-/

namespace UltraMds

/-- `char[n]`. -/
abbrev CharArray (n : ℕ) := Vector Int8 n

/-- The bytes of a `std::string`. -/
def chars (s : String) : List Int8 := s.toUTF8.data.toList.map UInt8.toInt8

/-- `strnlen(a, sizeof(a))`: the number of characters before the first NUL. -/
def strnlen {n : ℕ} (a : CharArray n) : ℕ :=
  (a.toList.findIdx? (· == 0)).getD n

/-- `std::string(a, strnlen(a, sizeof(a)))`. -/
def stdString {n : ℕ} (a : CharArray n) : List Int8 := a.toList.take (strnlen a)

/-- The text held by an array: its characters up to the first NUL. -/
def cText {n : ℕ} (a : CharArray n) : List Int8 := a.toList.takeWhile (· ≠ 0)

/-- The array that holds the text `s`, filled up with NUL characters. -/
def strcpy (n : ℕ) (s : List Int8) : CharArray n := Vector.ofFn fun i => s.getD i 0

theorem chars_injective : Function.Injective chars := by
  intro s t h
  have hinj : Function.Injective UInt8.toInt8 := fun a b hab => by
    simpa using congrArg Int8.toUInt8 hab
  have hbytes : s.toUTF8.data.toList = t.toUTF8.data.toList := List.map_injective_iff.2 hinj h
  exact String.toByteArray_inj.1 (ByteArray.ext (Array.toList_inj.1 hbytes))

@[simp] theorem chars_inj {s t : String} : chars s = chars t ↔ s = t := chars_injective.eq_iff

/-- Cutting at the first NUL is dropping what follows it. -/
theorem take_findIdx?_eq_takeWhile (l : List Int8) :
    l.take ((l.findIdx? (· == 0)).getD l.length) = l.takeWhile (· ≠ 0) := by
  induction l with
  | nil => rfl
  | cons c l ih =>
    by_cases hc : c = 0
    · simp [hc, List.findIdx?_cons]
    · rw [List.takeWhile_cons_of_pos (by simpa using hc), ← ih, List.findIdx?_cons]
      cases l.findIdx? (· == 0) <;> simp [hc]

/-- What the code reads from an array is the text it holds. -/
theorem stdString_eq_cText {n : ℕ} (a : CharArray n) : stdString a = cText a := by
  have h := take_findIdx?_eq_takeWhile a.toList
  rwa [Vector.length_toList] at h

theorem toList_strcpy {n : ℕ} {s : List Int8} (h : s.length ≤ n) :
    (strcpy n s).toList = s ++ List.replicate (n - s.length) 0 := by
  apply List.ext_getElem
  · simp; omega
  · intro i h1 h2
    have hi : i < n := by simpa using h1
    by_cases his : i < s.length
    · simp [strcpy, List.getElem_append_left, his]
    · simp [strcpy, List.getElem_append_right (not_lt.1 his), not_lt.1 his]

/-- A NUL-free text that leaves room for its terminator is read back. -/
theorem cText_strcpy {n : ℕ} {s : List Int8} (h : s.length ≤ n) (h0 : (0 : Int8) ∉ s) :
    cText (strcpy n s) = s := by
  rw [cText, toList_strcpy h, List.takeWhile_append_of_pos]
  · cases n - s.length <;> simp [List.replicate_succ]
  · intro c hc
    simpa using fun (h : c = 0) => h0 (h ▸ hc)

end UltraMds
