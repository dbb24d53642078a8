import Mathlib.Algebra.Group.Nat.Defs
import Mathlib.Data.List.Basic
import Mathlib.Tactic.Common

/-!
# Strings at compile time

A `StaticString` refers to a part of a string literal by a pointer and a size;
its constructors for substrings move the pointer and never copy.  This file
embeds the class with its unsigned arithmetic and with the arrays it points
into, so that a read outside of them shows, and says when `IsEqual` compares
contents.
-/

namespace FlatAsync

/-- `std::size_t` counts modulo this number. -/
def sizeModulus : Nat := 2 ^ 64

def subSize (a b : Nat) : Nat :=
  (a + sizeModulus - b) % sizeModulus

def addSize (a b : Nat) : Nat :=
  (a + b) % sizeModulus

theorem subSize_of_le {a b : Nat} (le : b ≤ a) (bounded : a < sizeModulus) :
    subSize a b = a - b := by
  unfold subSize
  rw [show a + sizeModulus - b = (a - b) + sizeModulus by omega, Nat.add_mod_right]
  apply Nat.mod_eq_of_lt
  omega

/-- The array of a string literal, which ends with a null character. -/
structure Literal where
  data : List UInt8
  terminated : data.getLast? = some 0
  addressable : data.length < sizeModulus
  deriving DecidableEq, Repr

theorem Literal.length_pos (literal : Literal) : 0 < literal.data.length := by
  have ends := literal.terminated
  cases empty : literal.data with
  | nil => simp [empty] at ends
  | cons => simp

/-- `data_` points to the character number `start` of the literal. -/
structure StaticString where
  literal : Literal
  start : Nat
  size : Nat
  deriving DecidableEq, Repr

/-- What a comparison finds, if it stays inside of the arrays, and the positions
it reads. -/
structure Comparison where
  result : Option Bool
  reads : List Nat
  deriving DecidableEq, Repr

/-- The position is read before the rest of a comparison. -/
def Comparison.after (index : Nat) (rest : Comparison) : Comparison :=
  { rest with reads := index :: rest.reads }

namespace StaticString

/-- The constructor from a literal. -/
def ofLiteral (data : Literal) : StaticString where
  literal := data
  start := 0
  size := data.data.length - 1

/-- The constructor from a string and an offset. -/
def suffix (other : StaticString) (startPos : Nat) : StaticString where
  literal := other.literal
  start := other.start + startPos
  size := subSize other.size startPos

/-- The characters from `data_` to the end of the array. -/
def data (s : StaticString) : List UInt8 :=
  s.literal.data.drop s.start

/-- `operator[]` -/
def get (s : StaticString) (n : Nat) : Option UInt8 :=
  if n < s.size then s.data[n]? else some 0

/-- `ToString`, which reads `size_` characters. -/
def toString (s : StaticString) : Option (List UInt8) :=
  if s.size ≤ s.data.length then some (s.data.take s.size) else none

/-- `IsStringsEqual` on what the two pointers point to. -/
def isStringsEqual (rhs lhs : List UInt8) (size index : Nat) : Comparison :=
  match rhs, lhs with
  | r :: rs, l :: ls =>
      if l = r then
        if index = subSize size 1 then ⟨some true, [index]⟩
        else (isStringsEqual ls rs size (addSize index 1)).after index
      else ⟨some false, [index]⟩
  | _, _ => ⟨none, [index]⟩
termination_by rhs.length + lhs.length

/-- `IsEqual`, called on one of a number of objects. -/
def isEqual (objects : Nat → StaticString) (this other : Nat) : Comparison :=
  if this = other then ⟨some true, []⟩
  else if (objects this).size = (objects other).size then
    isStringsEqual (objects this).data (objects other).data (objects this).size 0
  else ⟨some false, []⟩

/-- Strings that are made from literals by taking suffixes. -/
inductive Suffix : StaticString → Prop
  | literal (data : Literal) : Suffix (ofLiteral data)
  | suffix {other : StaticString} {startPos : Nat} (derived : Suffix other)
      (inside : startPos ≤ other.size) : Suffix (other.suffix startPos)

/-! ### Suffixes of a literal -/

variable {s : StaticString}

theorem Suffix.reaches (derived : Suffix s) :
    s.start + s.size + 1 = s.literal.data.length := by
  induction derived with
  | literal data =>
      have positive := data.length_pos
      simp only [ofLiteral]
      omega
  | suffix derived inside ih =>
      rename_i other startPos
      have bounded := other.literal.addressable
      simp only [StaticString.suffix]
      rw [subSize_of_le inside (by omega)]
      omega

theorem Suffix.size_lt (derived : Suffix s) : s.size < sizeModulus := by
  have reaches := derived.reaches
  have bounded := s.literal.addressable
  omega

theorem Suffix.length_data (derived : Suffix s) : s.data.length = s.size + 1 := by
  have reaches := derived.reaches
  simp only [data, List.length_drop]
  omega

theorem Suffix.toString_eq (derived : Suffix s) : s.toString = some (s.data.take s.size) := by
  have room := derived.length_data
  exact if_pos (by omega)

theorem Suffix.data_of_empty (derived : Suffix s) (empty : s.size = 0) : s.data = [0] := by
  have room := derived.length_data
  have last : s.data.getLast? = some 0 := by
    rw [data, List.getLast?_drop, if_neg, s.literal.terminated]
    have reaches := derived.reaches
    omega
  obtain ⟨char, same⟩ := List.length_eq_one_iff.mp (room.trans (by rw [empty]))
  rw [same] at last ⊢
  simpa using last

/-! ### Comparing -/

/-- With enough characters left the comparison ends before `size` and says whether
they agree. -/
theorem isStringsEqual_inside (rhs lhs : List UInt8) {size index : Nat}
    (before : index < size) (bounded : size < sizeModulus)
    (right : size - index ≤ rhs.length) (left : size - index ≤ lhs.length) :
    (isStringsEqual rhs lhs size index).result =
        some (decide (rhs.take (size - index) = lhs.take (size - index))) ∧
      ∀ position ∈ (isStringsEqual rhs lhs size index).reads, position < size := by
  have final : subSize size 1 = size - 1 := subSize_of_le (by omega) bounded
  have next : addSize index 1 = index + 1 := Nat.mod_eq_of_lt (by omega)
  induction rhs, lhs, index using isStringsEqual.induct size with
  | case1 r rs ls =>
      have one : size - subSize size 1 = 1 := by omega
      unfold isStringsEqual
      simp [one, before]
  | case2 index r rs ls notLast ih =>
      rw [next] at ih
      rw [final] at notLast
      have more : size - index = (size - (index + 1)) + 1 := by omega
      simp only [List.length_cons] at right left
      obtain ⟨result, reads⟩ := ih (by omega) (by omega) (by omega)
        (Nat.mod_eq_of_lt (by omega))
      unfold isStringsEqual
      simp only [final, notLast, next, if_true, if_false, Comparison.after, more,
        List.take_succ_cons, List.cons.injEq, true_and, List.mem_cons]
      refine ⟨by rw [result]; simp [eq_comm], ?_⟩
      rintro position (rfl | later)
      · exact before
      · exact reads position later
  | case3 index r rs l ls differ =>
      have more : size - index = (size - (index + 1)) + 1 := by omega
      unfold isStringsEqual
      simp [differ, more, Ne.symm differ, before]
  | case4 rhs lhs index short =>
      cases rhs with
      | nil =>
          simp only [List.length_nil] at right
          omega
      | cons r rs =>
          cases lhs with
          | nil =>
              simp only [List.length_nil] at left
              omega
          | cons l ls => exact (short r rs l ls rfl rfl).elim

/-- The comparison of two empty suffixes goes past their null characters. -/
theorem isStringsEqual_empty : isStringsEqual [0] [0] 0 0 = ⟨none, [0, 1]⟩ := by
  simp [isStringsEqual, subSize, addSize, sizeModulus, Comparison.after]

/-- The comparison has an answer, which says whether the contents of the two
strings are the same, and reads no position beyond their sizes. -/
structure Compares (comparison : Comparison) (s other : StaticString) : Prop where
  answers : ∃ answer, comparison.result = some answer ∧
    (answer = true ↔ s.toString = other.toString)
  inside : ∀ position ∈ comparison.reads, position < s.size ∧ position < other.size

section Objects

variable {objects : Nat → StaticString} {this that : Nat}

private theorem compares_self :
    Compares (isEqual objects this this) (objects this) (objects this) := by
  constructor
  · exact ⟨true, by simp [isEqual], by simp⟩
  · simp [isEqual]

private theorem compares_of_size_ne (left : Suffix (objects this)) (right : Suffix (objects that))
    (differ : (objects this).size ≠ (objects that).size) :
    Compares (isEqual objects this that) (objects this) (objects that) := by
  have apart : this ≠ that := by
    rintro rfl
    exact differ rfl
  have contents : (objects this).toString ≠ (objects that).toString := by
    rw [left.toString_eq, right.toString_eq]
    intro same
    have lengths := congrArg List.length (Option.some.inj same)
    rw [List.length_take, List.length_take, left.length_data, right.length_data] at lengths
    omega
  constructor
  · exact ⟨false, by simp [isEqual, apart, differ], by simpa using contents⟩
  · simp [isEqual, apart, differ]

private theorem compares_of_size_eq (left : Suffix (objects this)) (right : Suffix (objects that))
    (apart : this ≠ that) (same : (objects this).size = (objects that).size)
    (occupied : 0 < (objects this).size) :
    Compares (isEqual objects this that) (objects this) (objects that) := by
  have leftRoom := left.length_data
  have rightRoom := right.length_data
  obtain ⟨result, reads⟩ := isStringsEqual_inside (objects this).data (objects that).data
    occupied left.size_lt (by omega) (by omega)
  have compared : isEqual objects this that =
      isStringsEqual (objects this).data (objects that).data (objects this).size 0 := by
    simp [isEqual, apart, same]
  rw [compared]
  constructor
  · refine ⟨_, result, ?_⟩
    rw [left.toString_eq, right.toString_eq, same]
    simp
  · intro position member
    have bound := reads position member
    exact ⟨bound, by omega⟩

/-- `IsEqual` compares the contents of two suffixes of literals within their sizes
exactly if they are the same object or one of them is not empty. -/
theorem isEqual_compares_iff (left : Suffix (objects this)) (right : Suffix (objects that)) :
    Compares (isEqual objects this that) (objects this) (objects that) ↔
      this = that ∨ 0 < (objects this).size ∨ 0 < (objects that).size := by
  constructor
  · intro compares
    by_contra empty
    simp only [not_or, Nat.not_lt, Nat.le_zero] at empty
    obtain ⟨apart, leftEmpty, rightEmpty⟩ := empty
    obtain ⟨answer, found, -⟩ := compares.answers
    simp [isEqual, apart, leftEmpty, rightEmpty, left.data_of_empty leftEmpty,
      right.data_of_empty rightEmpty, isStringsEqual_empty] at found
  · intro occupied
    by_cases apart : this = that
    · subst apart
      exact compares_self
    · by_cases same : (objects this).size = (objects that).size
      · apply compares_of_size_eq left right apart same
        rcases occupied with alike | here | there
        · exact absurd alike apart
        · exact here
        · omega
      · exact compares_of_size_ne left right same

/-- Among objects that are not empty `IsEqual` is an equivalence relation. -/
theorem isEqual_equivalence (derived : ∀ this, Suffix (objects this))
    (occupied : ∀ this, 0 < (objects this).size) :
    Equivalence fun this that => (isEqual objects this that).result = some true := by
  have means (this that : Nat) : (isEqual objects this that).result = some true ↔
      (objects this).toString = (objects that).toString := by
    have compares := (isEqual_compares_iff (derived this) (derived that)).mpr
      (.inr (.inl (occupied this)))
    obtain ⟨answer, found, meaning⟩ := compares.answers
    rw [found, Option.some.injEq]
    exact meaning
  refine ⟨fun this => (means this this).mpr rfl, ?_, ?_⟩
  · intro this that same
    exact (means that this).mpr ((means this that).mp same).symm
  · intro this that third first second
    exact (means this third).mpr (((means this that).mp first).trans ((means that third).mp second))

end Objects

def emptyLiteral : Literal := ⟨[0], rfl, by decide⟩

/-- The literal `"foo"`. -/
def fooLiteral : Literal := ⟨[102, 111, 111, 0], rfl, by decide⟩

/-- The literal `"barfoo"`. -/
def barfooLiteral : Literal := ⟨[98, 97, 114, 102, 111, 111, 0], rfl, by decide⟩

/-- `""`, the end of `"barfoo"`, and the suffixes of `"foo"`. -/
def sampleObjects : Nat → StaticString
  | 0 => ofLiteral emptyLiteral
  | 1 => (ofLiteral barfooLiteral).suffix 3
  | n + 2 => (ofLiteral fooLiteral).suffix n

/-- The empty literal and the suffix of `"foo"` behind its last character have the
same contents, and `IsEqual` reads beyond both. -/
theorem isEqual_not_compares_emptySuffix :
    Suffix (sampleObjects 0) ∧ Suffix (sampleObjects 5) ∧
      ¬ Compares (isEqual sampleObjects 0 5) (sampleObjects 0) (sampleObjects 5) := by
  refine ⟨.literal _, .suffix (.literal _) (by decide), fun compares => ?_⟩
  have beyond := compares.inside 1
  simp [sampleObjects, isEqual, ofLiteral, suffix, data, emptyLiteral, fooLiteral, subSize,
    sizeModulus, isStringsEqual, addSize, Comparison.after] at beyond

/-- The end of `"barfoo"` and the whole of `"foo"`, which are of one size. -/
theorem isEqual_compares_fooSuffix :
    Compares (isEqual sampleObjects 1 2) (sampleObjects 1) (sampleObjects 2) := by
  have left : Suffix (sampleObjects 1) := .suffix (.literal _) (by decide)
  have right : Suffix (sampleObjects 2) := .suffix (.literal _) (by decide)
  exact (isEqual_compares_iff left right).mpr (.inr (.inl (by decide)))

end StaticString

end FlatAsync
