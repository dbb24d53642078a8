import Mathlib.Data.List.Basic
import Mathlib.Data.List.TakeWhile
import Mathlib.Tactic.Common

/-!
# Words from an input stream

The extraction of a string from an input stream skips white space and takes the
characters up to the next white space.  This file says when texts that are written
into a stream with a blank between them come out of it again, one by one.
-/

namespace FlatAsync

/-- `std::isspace` in the classic locale. -/
def isSpace (c : Char) : Bool :=
  [' ', '\t', '\n', '\x0b', '\x0c', '\r'].contains c

/-- The characters that are left in a stream; it is `good` while none of its error
bits is set. -/
structure InputStream where
  buffer : List Char
  good : Bool := true
  deriving DecidableEq, Repr

namespace InputStream

/-- The extraction of a string.  The stream is good no more when its end has been
reached, and gives the empty string from then on. -/
def extract (stream : InputStream) : List Char × InputStream :=
  if stream.good then
    let text := stream.buffer.dropWhile isSpace
    let rest := text.dropWhile (!isSpace ·)
    (text.takeWhile (!isSpace ·), ⟨rest, !rest.isEmpty⟩)
  else ([], stream)

/-- A number of extractions, one after the other. -/
def extracts (stream : InputStream) : Nat → List (List Char)
  | 0 => []
  | n + 1 => stream.extract.1 :: stream.extract.2.extracts n

def Solid (text : List Char) : Prop :=
  ∀ c ∈ text, isSpace c = false

instance (text : List Char) : Decidable (Solid text) :=
  List.decidableBAll (isSpace · = false) text

variable {stream : InputStream} {text rest : List Char} {texts : List (List Char)} {n : Nat}

private theorem solid_extract : Solid stream.extract.1 := by
  intro c member
  unfold extract at member
  split at member
  · simpa using List.mem_takeWhile_imp member
  · cases member

/-! ### Exhausted streams -/

private theorem extracts_of_not_good (spent : stream.good = false) :
    stream.extracts n = List.replicate n [] := by
  induction n with
  | zero => rfl
  | succ n ih => simp [extracts, extract, spent, ih, List.replicate_succ]

private theorem extract_eq_nil_iff :
    stream.extract.1 = [] ↔ stream.good = true → ∀ c ∈ stream.buffer, isSpace c = true := by
  unfold extract
  split
  next good =>
    simp only [good, true_imp_iff]
    rw [← List.dropWhile_eq_nil_iff]
    cases left : stream.buffer.dropWhile isSpace with
    | nil => simp
    | cons c text =>
        have first : isSpace c = false := by
          have some : stream.buffer.dropWhile isSpace ≠ [] := by simp [left]
          have stops := List.head_dropWhile_not isSpace some
          simpa [left] using stops
        simp [first]
  next spent => simp [spent]

private theorem extracts_of_nil (nothing : stream.extract.1 = []) :
    stream.extracts n = List.replicate n [] := by
  cases n with
  | zero => rfl
  | succ n =>
      have spent : stream.extract.2.good = false := by
        rw [extract_eq_nil_iff] at nothing
        unfold extract
        split
        next good => simp [List.dropWhile_eq_nil_iff.mpr (nothing good)]
        next spent => simpa using spent
      rw [extracts, nothing, extracts_of_not_good spent, List.replicate_succ]

/-! ### Texts with a blank between them -/

private theorem extract_blank : extract ⟨' ' :: rest, true⟩ = extract ⟨rest, true⟩ :=
  rfl

private theorem extracts_blank : extracts ⟨' ' :: rest, true⟩ n = extracts ⟨rest, true⟩ n := by
  cases n with
  | zero => rfl
  | succ n => simp only [extracts, extract_blank]

/-- A word that is followed by nothing or by a blank is taken as a whole. -/
theorem extract_word (word : text ≠ []) (solid : Solid text)
    (ends : rest = [] ∨ ∃ others, rest = ' ' :: others) :
    extract ⟨text ++ rest, true⟩ = (text, ⟨rest, !rest.isEmpty⟩) := by
  have skips : (text ++ rest).dropWhile isSpace = text ++ rest := by
    cases text with
    | nil => exact absurd rfl word
    | cons c text => simp [solid c List.mem_cons_self]
  have all : ∀ c ∈ text, (!isSpace c) = true := fun c member => by simp [solid c member]
  have stops : rest.takeWhile (!isSpace ·) = [] ∧ rest.dropWhile (!isSpace ·) = rest := by
    rcases ends with rfl | ⟨others, rfl⟩
    · exact ⟨rfl, rfl⟩
    · exact ⟨rfl, rfl⟩
  simp only [extract, if_true, skips, List.takeWhile_append_of_pos all,
    List.dropWhile_append_of_pos all, stops, List.append_nil]

private theorem extracts_word_cons (word : text ≠ []) (solid : Solid text) :
    extracts ⟨[' '].intercalate (text :: texts), true⟩ (texts.length + 1) =
      text :: extracts ⟨[' '].intercalate texts, true⟩ texts.length := by
  cases texts with
  | nil =>
      have taken := extract_word word solid (.inl rfl)
      rw [List.append_nil] at taken
      simp [extracts, taken]
  | cons next texts =>
      have taken := extract_word word solid (.inr ⟨[' '].intercalate (next :: texts), rfl⟩)
      rw [List.intercalate_cons_cons, List.append_assoc, List.singleton_append, extracts, taken]
      exact congrArg (text :: ·) extracts_blank

private theorem isSpace_of_empty (empty : ∀ text ∈ texts, text = []) :
    ∀ c ∈ [' '].intercalate texts, isSpace c = true := by
  induction texts with
  | nil => simp
  | cons text texts ih =>
      obtain ⟨rfl, others⟩ := List.forall_mem_cons.mp empty
      cases texts with
      | nil => simp
      | cons next texts =>
          rw [List.intercalate_cons_cons, List.nil_append, List.singleton_append,
            List.forall_mem_cons]
          exact ⟨rfl, ih others⟩

private theorem extracts_nil_cons_iff :
    extracts ⟨[' '].intercalate ([] :: texts), true⟩ (texts.length + 1) = [] :: texts ↔
      ∀ text ∈ texts, text = [] := by
  constructor
  · intro same
    have nothing := (List.cons.inj same).1
    rw [extracts_of_nil nothing, List.replicate_succ] at same
    rw [← (List.cons.inj same).2]
    exact fun text member => List.eq_of_mem_replicate member
  · intro empty
    have all : ∀ text ∈ [] :: texts, text = [] := List.forall_mem_cons.mpr ⟨rfl, empty⟩
    rw [extracts_of_nil (extract_eq_nil_iff.mpr fun _ => isSpace_of_empty all)]
    exact (List.eq_replicate_of_mem all).symm

/-- Texts that are written with a blank between them are read back exactly if they
contain no white space and only empty ones come behind an empty one. -/
theorem extracts_intercalate_iff :
    extracts ⟨[' '].intercalate texts, true⟩ texts.length = texts ↔
      (∀ text ∈ texts, Solid text) ∧
        texts.Pairwise fun text later => text = [] → later = [] := by
  induction texts with
  | nil => simp [extracts]
  | cons text texts ih =>
      rw [List.forall_mem_cons, List.pairwise_cons, List.length_cons]
      by_cases empty : text = []
      · subst empty
        rw [extracts_nil_cons_iff]
        constructor
        · intro none
          refine ⟨⟨by simp [Solid], ?_⟩, fun later member _ => none later member, ?_⟩
          · intro text member
            simp [none text member, Solid]
          · exact List.pairwise_of_forall_mem_list fun _ _ later member _ => none later member
        · exact fun readable later member => readable.2.1 later member rfl
      · constructor
        · intro same
          have taken : (extract ⟨[' '].intercalate (text :: texts), true⟩).1 = text :=
            (List.cons.inj same).1
          have solid : Solid text := taken ▸ solid_extract
          rw [extracts_word_cons empty solid] at same
          obtain ⟨solids, order⟩ := ih.mp (List.cons.inj same).2
          exact ⟨⟨solid, solids⟩, fun _ _ none => absurd none empty, order⟩
        · rintro ⟨⟨solid, solids⟩, -, order⟩
          rw [extracts_word_cons empty solid, ih.mpr ⟨solids, order⟩]

end InputStream

end FlatAsync
