import FlatAsync.ActionSystem
import FlatAsync.StaticString

/-!
# Substrings at compile time

A `StaticString` has two constructors for substrings.  The one that is given an
offset takes it away from the size; the one that is given a number of characters
as well takes this number away instead of the rest.  This file follows objects
that are made by any sequence of the two, beside the `std::string` that the same
calls of `substr` make, and says when they have the same contents.
-/

namespace FlatAsync

namespace StaticString

/-- The constructor from a string, an offset and a number of characters. -/
def substring (other : StaticString) (startPos number : Nat) : StaticString where
  literal := other.literal
  start := other.start + startPos
  size := subSize other.size number

end StaticString

/-- A call of one of the constructors for substrings. -/
inductive Cut
  | suffix (startPos : Nat)
  | substring (startPos number : Nat)
  deriving DecidableEq, Repr

namespace Cut

def startPos : Cut → Nat
  | suffix startPos | substring startPos _ => startPos

def construct (other : StaticString) : Cut → StaticString
  | suffix startPos => other.suffix startPos
  | substring startPos number => other.substring startPos number

/-- The characters that are asked for are there. -/
def Inside (other : StaticString) : Cut → Prop
  | suffix startPos => startPos ≤ other.size
  | substring startPos number => startPos + number ≤ other.size

instance (other : StaticString) : ∀ cut, Decidable (Inside other cut)
  | suffix _ | substring .. => inferInstanceAs (Decidable (_ ≤ _))

/-- `std::string::substr`, with or without a number of characters. -/
def substr (text : List UInt8) : Cut → List UInt8
  | suffix startPos => text.drop startPos
  | substring startPos number => (text.drop startPos).take number

/-- The number of characters asked for is half of those that are there. -/
def Halves (other : StaticString) : Cut → Prop
  | suffix _ => True
  | substring _ number => 2 * number = other.size

instance (other : StaticString) : ∀ cut, Decidable (Halves other cut)
  | suffix _ => inferInstanceAs (Decidable True)
  | substring .. => inferInstanceAs (Decidable (_ = _))

end Cut

/-- An object, the `std::string` that the same calls make and the sum of their
offsets. -/
structure Excerpt where
  value : StaticString
  text : List UInt8
  offset : Nat
  deriving DecidableEq, Repr

namespace Excerpt

def ofLiteral (literal : Literal) : Excerpt where
  value := StaticString.ofLiteral literal
  text := literal.data.dropLast
  offset := 0

def cut (s : Excerpt) (c : Cut) : Excerpt where
  value := c.construct s.value
  text := c.substr s.text
  offset := s.offset + c.startPos

end Excerpt

def excerptSystem : ActionSystem Excerpt Cut where
  enabled s cut := cut.Inside s.value
  next := Excerpt.cut

instance (s : Excerpt) (cut : Cut) : Decidable (excerptSystem.enabled s cut) :=
  inferInstanceAs (Decidable (cut.Inside s.value))

namespace Excerpt

/-- The object has the size and the characters of the `std::string`, which is the
part of the literal at the sum of the offsets, and refers to no character behind
those of the literal. -/
structure Agrees (literal : Literal) (s : Excerpt) : Prop where
  refers : s.value.literal = literal
  start : s.value.start = s.offset
  inside : s.offset + s.value.size < literal.data.length
  summed : s.text = (literal.data.drop s.offset).take s.value.size
  size : s.value.size = s.text.length
  toString : s.value.toString = some s.text
  get : ∀ n, s.value.get n = some (s.text.getD n 0)

variable {literal : Literal} {s : Excerpt} {c : Cut}

theorem Agrees.of_place (same : s.value.literal = literal) (start : s.value.start = s.offset)
    (inside : s.offset + s.value.size < literal.data.length)
    (summed : s.text = (literal.data.drop s.offset).take s.value.size) : Agrees literal s := by
  have data : s.value.data = literal.data.drop s.offset := by
    rw [StaticString.data, same, start]
  have room : s.value.size < s.value.data.length := by
    rw [data, List.length_drop]
    omega
  have text : s.text = s.value.data.take s.value.size := by rw [summed, data]
  have size : s.value.size = s.text.length := by
    rw [text, List.length_take]
    omega
  refine ⟨same, start, inside, summed, size, ?_, ?_⟩
  · rw [StaticString.toString, if_pos (Nat.le_of_lt room), text]
  · intro n
    unfold StaticString.get
    split
    next within =>
      rw [List.getD_eq_getElem?_getD, text, List.getElem?_take_of_lt within,
        List.getElem?_eq_getElem (by omega), Option.getD_some]
    next beyond =>
      rw [List.getD_eq_getElem?_getD, List.getElem?_eq_none (by omega), Option.getD_none]

theorem Agrees.ofLiteral (literal : Literal) : Agrees literal (ofLiteral literal) := by
  have positive := literal.length_pos
  refine Agrees.of_place rfl rfl ?_ ?_
  · simp only [Excerpt.ofLiteral, StaticString.ofLiteral]
    omega
  · simp only [Excerpt.ofLiteral, StaticString.ofLiteral, List.drop_zero]
    exact List.dropLast_eq_take

theorem Agrees.size_substring (agrees : Agrees literal s) {startPos number : Nat}
    (inside : startPos + number ≤ s.value.size) :
    (s.value.substring startPos number).size = s.value.size - number := by
  have bounded := literal.addressable
  have room := agrees.inside
  exact subSize_of_le (by omega) (by omega)

/-- A substring that is asked for by its offset, or by half of the size, is the one
that is asked for. -/
theorem Agrees.cut (agrees : Agrees literal s) (inside : c.Inside s.value)
    (halves : c.Halves s.value) : Agrees literal (s.cut c) := by
  have bounded := literal.addressable
  have room := agrees.inside
  cases c with
  | suffix startPos =>
      simp only [Cut.Inside] at inside
      have size : (s.value.suffix startPos).size = s.value.size - startPos :=
        subSize_of_le inside (by omega)
      refine Agrees.of_place agrees.refers ?_ ?_ ?_
      · simp only [Excerpt.cut, Cut.construct, StaticString.suffix, Cut.startPos, agrees.start]
      · simp only [Excerpt.cut, Cut.construct, size, Cut.startPos]
        omega
      · simp only [Excerpt.cut, Cut.construct, Cut.substr, size, Cut.startPos]
        rw [agrees.summed, List.drop_take, List.drop_drop]
  | substring startPos number =>
      simp only [Cut.Inside] at inside
      simp only [Cut.Halves] at halves
      have size : (s.value.substring startPos number).size = number := by
        rw [agrees.size_substring inside]
        omega
      refine Agrees.of_place agrees.refers ?_ ?_ ?_
      · simp only [Excerpt.cut, Cut.construct, StaticString.substring, Cut.startPos, agrees.start]
      · simp only [Excerpt.cut, Cut.construct, size, Cut.startPos]
        omega
      · simp only [Excerpt.cut, Cut.construct, Cut.substr, size, Cut.startPos]
        rw [agrees.summed, List.drop_take, List.drop_drop, List.take_take,
          Nat.min_eq_left (by omega)]

/-- Any other number of characters gives an object of the wrong size. -/
theorem Agrees.not_cut (agrees : Agrees literal s) (inside : c.Inside s.value)
    (other : ¬ c.Halves s.value) : ¬ Agrees literal (s.cut c) := by
  intro after
  cases c with
  | suffix => exact other trivial
  | substring startPos number =>
      simp only [Cut.Inside] at inside
      have wanted : ((s.text.drop startPos).take number).length = number := by
        rw [List.length_take, List.length_drop, ← agrees.size]
        omega
      have same : (s.value.substring startPos number).size =
          ((s.text.drop startPos).take number).length := after.size
      rw [agrees.size_substring inside, wanted] at same
      apply other
      simp only [Cut.Halves]
      omega

end Excerpt

/-- All objects that are made from a literal by taking substrings have the contents
they should have exactly if every number of characters that is asked for is half of
those that are there. -/
theorem substrings_compose_iff {literal : Literal} {cuts : List Cut}
    (legal : excerptSystem.Legal (.ofLiteral literal) cuts) :
    excerptSystem.EveryState (Excerpt.Agrees literal) (.ofLiteral literal) cuts ↔
      excerptSystem.EveryStep (fun s cut => cut.Halves s.value) (.ofLiteral literal) cuts := by
  refine ActionSystem.everyState_iff_everyStep (fun _ agrees => agrees) ?_ ?_
    (Excerpt.Agrees.ofLiteral literal) legal (ActionSystem.everyStep_of_forall fun _ _ => trivial)
  · exact fun s c agrees inside (_ : True) halves => agrees.cut inside halves
  · exact fun s c agrees inside _ other => agrees.not_cut inside other

/-- The literal `"foobar"`. -/
def foobarLiteral : Literal := ⟨[102, 111, 111, 98, 97, 114, 0], rfl, by decide⟩

/-- The last character of `"foobar"` is asked for: the object has five characters, most
of them behind the literal. -/
theorem substrings_not_compose_lastCharacter :
    excerptSystem.Legal (.ofLiteral foobarLiteral) [.substring 5 1] ∧
      ¬ excerptSystem.EveryState (Excerpt.Agrees foobarLiteral) (.ofLiteral foobarLiteral)
        [.substring 5 1] := by
  refine ⟨by decide, fun states => ?_⟩
  exact absurd states.2.toString (by decide)

/-- `"bar"`, `"ar"` and `"r"`. -/
theorem substrings_compose_halves :
    excerptSystem.EveryState (Excerpt.Agrees foobarLiteral) (.ofLiteral foobarLiteral)
      [.substring 3 3, .suffix 1, .substring 1 1] :=
  (substrings_compose_iff (by decide)).mpr (by decide)

end FlatAsync
