import PathTriage.Lexicon
import PathTriage.Score.Intent
import PathTriage.Proofs.Score.Formula
import Mathlib

/-!
The language of customary method names.

Customary names are given by three patterns that have to match the whole name. Here a pattern is
the language of the texts that it matches, built from classes of characters and from words. The
patterns overlap, as most names that open with a verb are plain names too, and a verb may be
followed by characters that no plain name has. What `isCustomaryName` accepts is their union.
-/

namespace PathTriage.Lexicon

open Computability Scalar

/-! ## Classes and words -/

/-- The texts of one character out of a class. -/
def oneOf (s : Set Char) : Language Char := {w | ∃ c ∈ s, w = [c]}

/-- Any of some words. -/
def anyWord (ws : List String) : Language Char := {w | ∃ word ∈ ws, w = word.toList}

variable {s : Set Char} {ws : List String} {l : Language Char} {w : List Char}

/-- A word that begins with a character of a class. -/
theorem mem_oneOf_mul : w ∈ oneOf s * l ↔ ∃ c rest, w = c :: rest ∧ c ∈ s ∧ rest ∈ l := by
  rw [Language.mem_mul]
  refine ⟨?_, ?_⟩
  · rintro ⟨_, ⟨c, hc, rfl⟩, rest, hrest, rfl⟩
    exact ⟨c, rest, rfl, hc, hrest⟩
  · rintro ⟨c, rest, rfl, hc, hrest⟩
    exact ⟨[c], ⟨c, hc, rfl⟩, rest, hrest, rfl⟩

/-- A word that begins with one of some words. -/
theorem mem_anyWord_mul :
    w ∈ anyWord ws * l ↔ ∃ word ∈ ws, ∃ rest, w = word.toList ++ rest ∧ rest ∈ l := by
  rw [Language.mem_mul]
  refine ⟨?_, ?_⟩
  · rintro ⟨_, ⟨word, hword, rfl⟩, rest, hrest, rfl⟩
    exact ⟨word, hword, rest, rfl, hrest⟩
  · rintro ⟨word, hword, rest, rfl, hrest⟩
    exact ⟨_, ⟨word, hword, rfl⟩, rest, hrest, rfl⟩

/-- A class repeated gives the texts over the class. -/
theorem mem_oneOf_kstar : w ∈ (oneOf s)∗ ↔ ∀ c ∈ w, c ∈ s := by
  rw [Language.mem_kstar]
  refine ⟨?_, ?_⟩
  · rintro ⟨parts, rfl, hparts⟩ c hc
    obtain ⟨part, hpart, hc⟩ := List.mem_flatten.1 hc
    obtain ⟨d, hd, rfl⟩ := hparts part hpart
    rwa [List.mem_singleton.1 hc]
  · -- the parts are the single characters
    intro hw
    refine ⟨w.map ([·]), (List.flatMap_singleton' w).symm, ?_⟩
    intro part hpart
    obtain ⟨c, hc, rfl⟩ := List.mem_map.1 hpart
    exact ⟨c, hw c hc, rfl⟩

/-! ## Patterns -/

/-- A small letter, then letters and digits. -/
def plainPattern : Language Char :=
  oneOf (Set.Icc 'a' 'z') * (oneOf (Set.Icc 'a' 'z' ∪ Set.Icc 'A' 'Z' ∪ Set.Icc '0' '9'))∗

/-- One of some verbs, then a capital letter, then any characters of one line. -/
def verbPattern (verbs : List String) : Language Char :=
  anyWord verbs * (oneOf (Set.Icc 'A' 'Z') * (oneOf {'\n'}ᶜ)∗)

/-- The patterns of customary names. -/
def patterns : List (Language Char) :=
  [plainPattern, verbPattern ["get", "set", "is", "has", "can"],
   verbPattern ["create", "update", "delete", "find", "save"]]

/-- The first pattern in terms of characters. -/
theorem mem_plainPattern :
    w ∈ plainPattern ↔ ∃ c rest, w = c :: rest ∧ c ∈ Set.Icc 'a' 'z' ∧
      ∀ d ∈ rest, d ∈ Set.Icc 'a' 'z' ∪ Set.Icc 'A' 'Z' ∪ Set.Icc '0' '9' := by
  simp only [plainPattern, mem_oneOf_mul, mem_oneOf_kstar]

/-- The other pattern: what follows the capital may be anything but a line feed. -/
theorem mem_verbPattern :
    w ∈ verbPattern ws ↔ ∃ verb ∈ ws, ∃ c rest,
      w = verb.toList ++ c :: rest ∧ c ∈ Set.Icc 'A' 'Z' ∧ '\n' ∉ rest := by
  simp only [verbPattern, mem_anyWord_mul, mem_oneOf_mul, mem_oneOf_kstar]
  have hline : ∀ rest : List Char, (∀ c ∈ rest, c ∈ ({'\n'}ᶜ : Set Char)) ↔ '\n' ∉ rest :=
    fun rest => ⟨fun h hmem => h _ hmem rfl, fun h c hc heq => h (heq ▸ hc)⟩
  refine ⟨?_, ?_⟩
  · rintro ⟨verb, hverb, _, rfl, c, rest, rfl, hc, hrest⟩
    exact ⟨verb, hverb, c, rest, rfl, hc, (hline rest).1 hrest⟩
  · rintro ⟨verb, hverb, c, rest, rfl, hc, hrest⟩
    exact ⟨verb, hverb, _, rfl, c, rest, rfl, hc, (hline rest).2 hrest⟩

/-- Verbs can be shared out over patterns in any way. -/
theorem mem_verbPattern_append {vs : List String} :
    w ∈ verbPattern (vs ++ ws) ↔ w ∈ verbPattern vs ∨ w ∈ verbPattern ws := by
  simp only [mem_verbPattern, List.mem_append, or_and_right, exists_or]

/-! ## Tests -/

theorem range_iff {a b c : Char} : (a ≤ c && c ≤ b) = true ↔ c ∈ Set.Icc a b := by
  rw [Bool.and_eq_true, decide_eq_true_eq, decide_eq_true_eq, Set.mem_Icc]

theorem isSmall_iff {c : Char} : isSmall c = true ↔ c ∈ Set.Icc 'a' 'z' := range_iff

theorem isCapital_iff_mem {c : Char} : Text.Camel.isCapital c = true ↔ c ∈ Set.Icc 'A' 'Z' :=
  range_iff

theorem isAlphanumeric_iff {c : Char} :
    isAlphanumeric c = true ↔ c ∈ Set.Icc 'a' 'z' ∪ Set.Icc 'A' 'Z' ∪ Set.Icc '0' '9' := by
  rw [isAlphanumeric, Bool.or_eq_true, Bool.or_eq_true, isSmall_iff, isCapital_iff_mem, range_iff,
    Set.mem_union, Set.mem_union]

/-- The first test is the first pattern. -/
theorem isPlainName_iff {cs : List Char} : isPlainName cs = true ↔ cs ∈ plainPattern := by
  rw [mem_plainPattern]
  cases cs with
  | nil => simp [isPlainName]
  | cons c cs =>
    simp only [isPlainName, Bool.and_eq_true, List.all_eq_true, isSmall_iff, isAlphanumeric_iff]
    refine ⟨?_, ?_⟩
    · rintro ⟨hc, hcs⟩
      exact ⟨c, cs, rfl, hc, hcs⟩
    · rintro ⟨_, _, ⟨⟩, hc, hcs⟩
      exact ⟨hc, hcs⟩

/-- Behind the verb there has to be a capital letter, so the verb alone is not enough. -/
theorem isAccessorName_iff {verb cs : List Char} :
    isAccessorName verb cs = true ↔
      ∃ c rest, cs = verb ++ c :: rest ∧ c ∈ Set.Icc 'A' 'Z' ∧ '\n' ∉ rest := by
  have htail : ∀ (c : Char) (rest : List Char),
      (Text.Camel.isCapital c && !rest.contains '\n') = true ↔
        c ∈ Set.Icc 'A' 'Z' ∧ '\n' ∉ rest := by
    intro c rest
    rw [Bool.and_eq_true, isCapital_iff_mem, Bool.not_eq_true', List.contains_eq_mem,
      decide_eq_false_iff_not]
  rw [isAccessorName, Bool.and_eq_true, List.isPrefixOf_iff_prefix]
  refine ⟨?_, ?_⟩
  · rintro ⟨⟨tail, rfl⟩, h⟩
    rw [List.drop_left] at h
    cases tail with
    | nil => cases h
    | cons c rest => exact ⟨c, rest, rfl, (htail c rest).1 h⟩
  · rintro ⟨c, rest, rfl, h⟩
    refine ⟨List.prefix_append _ _, ?_⟩
    rw [List.drop_left]
    exact (htail c rest).2 h

/-- The tests together are the two patterns together. -/
theorem isCustomaryName_iff_mem {name : String} :
    isCustomaryName name = true ↔
      name.toList ∈ plainPattern ∨ name.toList ∈ verbPattern accessorVerbs := by
  rw [isCustomaryName, Bool.or_eq_true, isPlainName_iff, List.any_eq_true, mem_verbPattern]
  simp only [isAccessorName_iff]

/-! ## The language -/

/-- A name is customary just when it is a small letter followed by letters and digits, or one of ten
    verbs followed by a capital letter and by anything but line feeds. These are the names that one
    of the three patterns matches. The naming score of a single method is one when its name is
    customary, else zero. -/
theorem isCustomaryName_exact (name : String) :
    (isCustomaryName name = true ↔
      (∃ c rest, name.toList = c :: rest ∧ c ∈ Set.Icc 'a' 'z' ∧
        ∀ d ∈ rest, d ∈ Set.Icc 'a' 'z' ∪ Set.Icc 'A' 'Z' ∪ Set.Icc '0' '9') ∨
      ∃ verb ∈ ["get", "set", "is", "has", "can", "create", "update", "delete", "find", "save"],
        ∃ c rest, name.toList = verb.toList ++ c :: rest ∧ c ∈ Set.Icc 'A' 'Z' ∧ '\n' ∉ rest) ∧
    (isCustomaryName name = true ↔ ∃ pattern ∈ patterns, name.toList ∈ pattern) ∧
    ∀ m : Method, Intent.naming [{ m with name := name }] =
      Except.ok (Json.ofFloat (if isCustomaryName name then 1 else 0)) := by
  refine ⟨?_, ?_, ?_⟩
  · rw [isCustomaryName_iff_mem, mem_plainPattern, mem_verbPattern]
    rfl
  · -- the patterns share the verbs out
    have hverbs : accessorVerbs = ["get", "set", "is", "has", "can"] ++
        ["create", "update", "delete", "find", "save"] := rfl
    rw [isCustomaryName_iff_mem, hverbs, mem_verbPattern_append]
    simp [patterns]
  · intro m
    exact meanWhere_singleton _ _

/-- A match of a mere opening is not enough, and behind the capital letter only a line feed is
    refused. -/
example :
    ["get", "getÉtat", "isOk été_1", "getName\n", "getName()\t", "saveX", "save_x", ""].map
        isCustomaryName = [true, false, true, false, true, true, false, false] := by
  decide

end PathTriage.Lexicon
