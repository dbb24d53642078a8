import FlatAsync.AsyncRunner
import FlatAsync.InputStream

/-!
# Enumerations in streams

An enumeration has a table with a string for each of its values.  `EnumToStream`
writes the whole string of a value, and `EnumFromStream` reads one word, looks for
it in the table and leaves the variable alone if it is not there.  This file says
which lists of values can be read back from what was written.
-/

namespace FlatAsync

/-- An enumeration, with the casts to and from its underlying type.  As this is a
type of integers, a variable can always hold another value than a given one. -/
class Enumeration (T : Type*) where
  toIntegral : T → Int
  fromIntegral : Int → T
  fromIntegral_toIntegral : ∀ e, fromIntegral (toIntegral e) = e
  exists_ne : ∀ e : T, ∃ other : T, other ≠ e

open Enumeration

/-- The table of an enumeration.  A string is given by the characters before its null
character.  The underlying type is assumed to hold each index of the table, so that
`EnumFromStream` gets the value at the index that it casts. -/
class EnumStrings (T : Type*) [Enumeration T] where
  data : List (List Char)
  toIntegral_fromIntegral : ∀ index : Nat, index < data.length →
    toIntegral (fromIntegral index : T) = index

namespace EnumStrings

variable {T : Type*} [Enumeration T] [EnumStrings T]

def Valid (e : T) : Prop :=
  0 ≤ toIntegral e ∧ toIntegral e < (data T).length

instance (e : T) : Decidable (Valid e) :=
  inferInstanceAs (Decidable (_ ∧ _))

def string (e : T) : List Char :=
  (data T).getD (toIntegral e).toNat []

/-- `operator<<` on what `EnumToStream` returns. -/
def enumToStream (stream : List Char) (e : T) : List Char :=
  if 0 ≤ toIntegral e ∧ toIntegral e < (data T).length then
    stream ++ (data T).getD (toIntegral e).toNat []
  else stream

/-- `operator>>` on what `EnumFromStream` returns: the variable that held `held`, and
the stream. -/
def enumFromStream (stream : InputStream) (held : T) : T × InputStream :=
  let (value, rest) := stream.extract
  let find := (data T).idxOf value
  (if find < (data T).length then fromIntegral find else held, rest)

/-- Values are written with a blank between them. -/
def enumsToStream (stream : List Char) : List T → List Char
  | [] => stream
  | [e] => enumToStream stream e
  | e :: next :: es => enumsToStream (enumToStream stream e ++ [' ']) (next :: es)

/-- Values are read into variables. -/
def enumsFromStream (stream : InputStream) : List T → List T
  | [] => []
  | held :: others =>
      let (e, rest) := enumFromStream stream held
      e :: enumsFromStream rest others

/-- The values that are written are read back, whatever the variables held before. -/
def RoundTrips (es : List T) : Prop :=
  ∀ held : List T, held.length = es.length →
    enumsFromStream ⟨enumsToStream [] es, true⟩ held = es

/-- No string contains white space, and behind an empty one there are only empty
ones. -/
def Readable (es : List T) : Prop :=
  (∀ e ∈ es, InputStream.Solid (string e)) ∧
    es.Pairwise fun e later => string e = [] → string later = []

instance (es : List T) : Decidable (Readable es) :=
  inferInstanceAs (Decidable (_ ∧ _))

variable {e : T} {es : List T} {stream : InputStream}

/-! ### Reading -/

private theorem string_eq_iff (distinct : (data T).Nodup) (valid : Valid e) {value : List Char} :
    string e = value ↔
      (data T).idxOf value < (data T).length ∧ fromIntegral ((data T).idxOf value : Int) = e := by
  obtain ⟨index, cast⟩ := Int.eq_ofNat_of_zero_le valid.1
  have inside : index < (data T).length := by
    have bound := valid.2
    omega
  have place : string e = (data T)[index] := by
    simp [string, cast, List.getD_eq_getElem?_getD, inside]
  constructor
  · rintro rfl
    have found : (data T).idxOf (string e) = index := by
      rw [place]
      exact distinct.idxOf_getElem index inside
    rw [found, ← cast]
    exact ⟨inside, fromIntegral_toIntegral e⟩
  · rintro ⟨found, same⟩
    have back := toIntegral_fromIntegral (T := T) _ found
    rw [same, cast] at back
    obtain rfl : index = (data T).idxOf value := by exact_mod_cast back
    rw [place]
    exact List.getElem_idxOf found

/-- A variable gets a value for certain exactly if its string is read. -/
theorem enumFromStream_eq_iff (distinct : (data T).Nodup) (valid : Valid e) :
    (∀ held, (enumFromStream stream held).1 = e) ↔ stream.extract.1 = string e := by
  rw [eq_comm (a := stream.extract.1), string_eq_iff distinct valid]
  simp only [enumFromStream]
  constructor
  · intro certain
    split at certain
    next found => exact ⟨found, certain e⟩
    next missing =>
      obtain ⟨other, differs⟩ := exists_ne e
      exact absurd (certain other) differs
  · rintro ⟨found, same⟩ held
    rw [if_pos found, same]

/-- The values are read into any variables exactly if their strings are extracted. -/
theorem enumsFromStream_eq_iff (distinct : (data T).Nodup) (valid : ∀ e ∈ es, Valid e) :
    (∀ held : List T, held.length = es.length → enumsFromStream stream held = es) ↔
      stream.extracts es.length = es.map string := by
  induction es generalizing stream with
  | nil => simp [InputStream.extracts, enumsFromStream]
  | cons e es ih =>
      obtain ⟨here, others⟩ := List.forall_mem_cons.mp valid
      rw [List.length_cons, InputStream.extracts, List.map_cons, List.cons.injEq,
        ← enumFromStream_eq_iff distinct here, ← ih others]
      constructor
      · intro reads
        refine ⟨fun held => ?_, fun held same => ?_⟩
        · exact (List.cons.inj (reads (held :: es) rfl)).1
        · exact (List.cons.inj (reads (e :: held) (by simp [same]))).2
      · rintro ⟨first, rest⟩ held same
        cases held with
        | nil => cases same
        | cons held more =>
            have length : more.length = es.length := by simpa using same
            change (enumFromStream stream held).1 :: _ = _
            rw [first held]
            exact congrArg (e :: ·) (rest more length)

/-! ### Writing -/

private theorem enumToStream_eq (valid : Valid e) (stream : List Char) :
    enumToStream stream e = stream ++ string e :=
  if_pos valid

private theorem enumsToStream_eq (valid : ∀ e ∈ es, Valid e) (stream : List Char) :
    enumsToStream stream es = stream ++ [' '].intercalate (es.map string) := by
  induction es generalizing stream with
  | nil => simp [enumsToStream]
  | cons e es ih =>
      obtain ⟨here, others⟩ := List.forall_mem_cons.mp valid
      cases es with
      | nil => simp [enumsToStream, enumToStream_eq here]
      | cons next es =>
          rw [enumsToStream, ih others, enumToStream_eq here, List.map_cons, List.map_cons,
            List.map_cons, List.intercalate_cons_cons]
          simp only [List.append_assoc]

theorem roundTrips_iff_extracts (distinct : (data T).Nodup) (valid : ∀ e ∈ es, Valid e) :
    RoundTrips es ↔
      InputStream.extracts ⟨[' '].intercalate (es.map string), true⟩ es.length =
        es.map string := by
  unfold RoundTrips
  rw [enumsFromStream_eq_iff distinct valid, enumsToStream_eq valid, List.nil_append]

theorem extracts_iff_readable :
    InputStream.extracts ⟨[' '].intercalate (es.map string), true⟩ es.length =
      es.map string ↔ Readable es := by
  rw [← List.length_map string, InputStream.extracts_intercalate_iff, List.forall_mem_map,
    List.pairwise_map]
  exact Iff.rfl

/-! ### Tables that work for all lists -/

theorem string_mem (valid : Valid e) : string e ∈ data T := by
  have bound := valid.2
  have inside : (toIntegral e).toNat < (data T).length := by
    have start := valid.1
    omega
  rw [string, List.getD_eq_getElem?_getD, List.getElem?_eq_getElem inside]
  exact List.getElem_mem inside

theorem exists_string {text : List Char} (member : text ∈ data T) :
    ∃ e : T, Valid e ∧ string e = text := by
  obtain ⟨index, inside, rfl⟩ := List.mem_iff_getElem.mp member
  have cast := toIntegral_fromIntegral (T := T) index inside
  refine ⟨fromIntegral index, ⟨by omega, by omega⟩, ?_⟩
  simp [string, cast, List.getD_eq_getElem?_getD, inside]

/-- All lists of values are read back exactly if each string of the table is a word, or
the only string is the empty one. -/
theorem roundTrips_always_iff (distinct : (data T).Nodup) :
    (∀ es : List T, (∀ e ∈ es, Valid e) → RoundTrips es) ↔
      (∀ text ∈ data T, text ≠ [] ∧ InputStream.Solid text) ∨ data T = [[]] := by
  have readable (es : List T) (valid : ∀ e ∈ es, Valid e) : RoundTrips es ↔ Readable es :=
    (roundTrips_iff_extracts distinct valid).trans extracts_iff_readable
  constructor
  · intro always
    by_cases words : ∀ text ∈ data T, text ≠ [] ∧ InputStream.Solid text
    · exact .inl words
    · right
      have solid : ∀ text ∈ data T, InputStream.Solid text := by
        intro text member
        obtain ⟨e, valid, rfl⟩ := exists_string member
        have one : ∀ other ∈ [e], Valid other := by simpa using valid
        exact ((readable [e] one).mp (always [e] one)).1 e (by simp)
      have empty : [] ∈ data T := by
        by_contra missing
        exact words fun text member => ⟨fun none => missing (none ▸ member), solid text member⟩
      have alone : ∀ text ∈ data T, text = [] := by
        intro text member
        obtain ⟨e, valid, none⟩ := exists_string empty
        obtain ⟨later, also, rfl⟩ := exists_string member
        have two : ∀ other ∈ [e, later], Valid other := by simp [valid, also]
        have order := ((readable [e, later] two).mp (always [e, later] two)).2
        exact List.rel_of_pairwise_cons order (by simp) none
      have all := List.eq_replicate_of_mem alone
      have few : (data T).length ≤ 1 := by
        rw [all] at distinct
        exact List.nodup_replicate.mp distinct
      have positive := List.length_pos_of_mem empty
      rw [all, show (data T).length = 1 by omega]
      rfl
  · rintro (words | single) es valid
    · rw [readable es valid]
      refine ⟨fun e member => (words _ (string_mem (valid e member))).2, ?_⟩
      apply List.pairwise_of_forall_mem_list
      intro e member later _ none
      exact absurd none (words _ (string_mem (valid e member))).1
    · have empty (e : T) (member : e ∈ es) : string e = [] := by
        have found := string_mem (valid e member)
        rwa [single, List.mem_singleton] at found
      rw [readable es valid]
      refine ⟨fun e member => by simp [empty e member, InputStream.Solid], ?_⟩
      exact List.pairwise_of_forall_mem_list fun _ _ later member _ => empty later member

end EnumStrings

/-! ### The tables of the program -/

inductive GeneralError
  | success
  | internalError
  | wrongCommandLine
  | startupFailed
  deriving DecidableEq, Repr

instance : Enumeration GeneralError where
  toIntegral
    | .success => 0
    | .internalError => 1
    | .wrongCommandLine => 2
    | .startupFailed => 3
  fromIntegral
    | 0 => .success
    | 1 => .internalError
    | 2 => .wrongCommandLine
    | _ => .startupFailed
  fromIntegral_toIntegral e := by cases e <;> rfl
  exists_ne e := ⟨if e = .success then .internalError else .success, by cases e <;> decide⟩

instance : EnumStrings GeneralError where
  data := ["Success".toList, "Internal error".toList, "Wrong command line arguments".toList,
    "Startup has failed".toList]
  toIntegral_fromIntegral := by decide

instance : Enumeration AsyncOpStatus where
  toIntegral
    | .normal => 0
    | .cancelled => 1
    | .timedout => 2
  fromIntegral
    | 0 => .normal
    | 1 => .cancelled
    | _ => .timedout
  fromIntegral_toIntegral e := by cases e <;> rfl
  exists_ne e := ⟨if e = .normal then .cancelled else .normal, by cases e <;> decide⟩

instance : EnumStrings AsyncOpStatus where
  data := ["Normal".toList, "Cancelled".toList, "Timedout".toList]
  toIntegral_fromIntegral := by decide

open EnumStrings

theorem AsyncOpStatus.roundTrips (statuses : List AsyncOpStatus) : RoundTrips statuses := by
  have always := (roundTrips_always_iff (T := AsyncOpStatus) (by decide)).mpr (.inl (by decide))
  apply always statuses
  intro status _
  cases status <;> decide

/-- Values of an enumeration are read back exactly if no string among theirs contains
white space and only empty ones come behind an empty one. -/
theorem enum_round_trips_iff {T : Type*} [Enumeration T] [EnumStrings T]
    (distinct : (data T).Nodup) {es : List T} (valid : ∀ e ∈ es, Valid e) :
    RoundTrips es ↔ Readable es :=
  (roundTrips_iff_extracts distinct valid).trans extracts_iff_readable

/-- `"Internal error"` is two words: a variable that held `Success` keeps it. -/
theorem enum_not_round_trips_internalError :
    (data GeneralError).Nodup ∧ Valid GeneralError.internalError ∧
      ¬ RoundTrips [GeneralError.internalError] := by
  refine ⟨by decide, by decide, fun trips => ?_⟩
  exact absurd (trips [.success] rfl) (by decide)

theorem enum_round_trips_twoStatuses :
    RoundTrips [AsyncOpStatus.cancelled, AsyncOpStatus.normal] :=
  (enum_round_trips_iff (by decide) (by decide)).mpr (by decide)

end FlatAsync
