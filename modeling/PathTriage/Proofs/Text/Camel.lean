import PathTriage.Text.Camel
import Mathlib

/-!
The words of a camel-case name.

A name can be cut in front of its capital letters in one way only, and `pieces` is that way
(`cut_iff`). The words are what is left of the pieces once the short ones are dropped. They have no
capital letters, because nothing lower-cases to one: not the ASCII letters, not the capital sigma
and the dotted i, and not the letters of the table, whose partners all lie above the ASCII
capitals.
-/

namespace PathTriage.Text

open Camel (isCapital)

/-! ## Capital letters -/

theorem Camel.isCapital_iff {c : Char} : isCapital c = true ↔ 65 ≤ c.toNat ∧ c.toNat ≤ 90 := by
  show (decide ('A' ≤ c) && decide (c ≤ 'Z')) = true ↔ _
  rw [Bool.and_eq_true, decide_eq_true_eq, decide_eq_true_eq]
  rfl

theorem Camel.isCapital_ofNat {n : Nat} (h : 90 < n) : isCapital (Char.ofNat n) = false := by
  rw [← Bool.not_eq_true, isCapital_iff, Char.toNat_ofNat]
  -- a number that is no code point gives the null character
  split <;> omega

theorem Camel.isCapital_toLower (c : Char) : isCapital c.toLower = false := by
  have hsame : isCapital c.toLower = c.toLower.isUpper := by
    simp only [isCapital, Char.isUpper, Char.le_def, ge_iff_le,
      Bool.decide_and]
  rw [hsame, Char.isUpper_toLower_eq_false]

namespace Casing

/-- The partners of all capital letters outside ASCII lie above the ASCII capitals. -/
theorem lt_shifted_of_mem : ∀ s ∈ stretches, (90 : Int) < s.first + s.shift := by decide +kernel

theorem lt_partner {n : Nat} (h : 128 ≤ n) : 90 < partner n := by
  unfold partner
  cases hfind : stretches.find? (·.holds n) with
  | none => show 90 < n; omega
  | some s =>
    show 90 < (n + s.shift).toNat
    have hshift := lt_shifted_of_mem s (List.mem_of_find?_eq_some hfind)
    have hholds := List.find?_some hfind
    simp only [Stretch.holds, Bool.and_eq_true, decide_eq_true_eq] at hholds
    omega

theorem isCapital_of_mem_lowerChar {before after : List Char} {c d : Char}
    (h : d ∈ lowerChar before c after) : isCapital d = false := by
  unfold lowerChar at h
  split at h
  · -- ASCII
    rw [List.mem_singleton] at h
    subst h
    exact Camel.isCapital_toLower c
  · next hascii =>
    split at h
    · rw [List.mem_singleton] at h
      subst h
      split <;> rfl
    · split at h
      · rcases List.mem_pair.1 h with rfl | rfl
        · rfl
        · exact Camel.isCapital_ofNat (by decide)
      · rw [List.mem_singleton] at h
        subst h
        exact Camel.isCapital_ofNat (lt_partner (by omega))

/-- Nothing lower-cases to a capital letter, whatever stands before it. -/
theorem isCapital_of_mem_lowerFrom {before cs : List Char} {d : Char}
    (h : d ∈ lowerFrom before cs) : isCapital d = false := by
  induction cs generalizing before with
  | nil => cases h
  | cons c after ih =>
    rw [lowerFrom, List.mem_append] at h
    rcases h with h | h
    · exact isCapital_of_mem_lowerChar h
    · exact ih h

end Casing

theorem isCapital_of_mem_lower {text : String} {d : Char} (h : d ∈ (lower text).toList) :
    isCapital d = false := by
  rw [lower, String.toList_ofList] at h
  exact Casing.isCapital_of_mem_lowerFrom h

namespace Camel

/-! ## Pieces -/

/-- A name cut in front of every capital letter. -/
structure Cut (name : List Char) (pieces : List (List Char)) : Prop where
  /-- Nothing is lost and nothing is added. -/
  joined : pieces.flatten = name
  /-- What stands in front of the first capital letter is a piece, though it may be empty. -/
  first : ∃ head rest, pieces = head :: rest ∧ ∀ c ∈ head, isCapital c = false
  /-- Every other piece begins with a capital letter. -/
  opened : ∀ piece ∈ pieces.tail, ∃ c rest, piece = c :: rest ∧ isCapital c = true
  /-- No piece has a capital letter behind its start. -/
  plain : ∀ piece ∈ pieces, ∀ c ∈ piece.tail, isCapital c = false

/-- The pieces of a name with one more character in front. -/
def extend (c : Char) (piece : List Char) (rest : List (List Char)) : List (List Char) :=
  if isCapital c then [] :: (c :: piece) :: rest else (c :: piece) :: rest

variable {c : Char} {cs piece : List Char} {rest ps : List (List Char)}

theorem Cut.extend (h : Cut cs (piece :: rest)) : Cut (c :: cs) (Camel.extend c piece rest) := by
  obtain ⟨_, _, ⟨⟩, hpiece⟩ := h.first
  have hjoined : piece ++ rest.flatten = cs := h.joined
  have hplain : ∀ p ∈ (c :: piece) :: rest, ∀ d ∈ p.tail, isCapital d = false := by
    intro p hp
    rcases List.mem_cons.1 hp with rfl | hp
    · exact hpiece
    · exact h.plain p (List.mem_cons_of_mem piece hp)
  unfold Camel.extend
  split
  · next hc =>
    -- a capital opens a piece of its own, with nothing in front of it
    refine ⟨by simp [hjoined], ⟨[], _, rfl, by simp⟩, ?_, ?_⟩
    · intro p hp
      rcases List.mem_cons.1 hp with rfl | hp
      · exact ⟨c, piece, rfl, hc⟩
      · exact h.opened p hp
    · intro p hp
      rcases List.mem_cons.1 hp with rfl | hp
      · simp
      · exact hplain p hp
  · next hc =>
    -- any other character goes to the front of the first piece
    refine ⟨by simp [hjoined], ⟨c :: piece, rest, rfl, ?_⟩, h.opened, hplain⟩
    intro d hd
    rcases List.mem_cons.1 hd with rfl | hd
    · exact Bool.eq_false_iff.2 hc
    · exact hpiece d hd

/-- A cut of a name that has a first character comes from one of the rest. -/
theorem Cut.exists_extend (h : Cut (c :: cs) ps) :
    ∃ piece rest, Cut cs (piece :: rest) ∧ ps = Camel.extend c piece rest := by
  obtain ⟨head, rest, rfl, hhead⟩ := h.first
  cases head with
  | cons d piece =>
    -- the character is in the first piece, so it is no capital
    obtain ⟨rfl, hjoined⟩ := List.cons.inj h.joined
    have hd := hhead d List.mem_cons_self
    have hpiece : ∀ e ∈ piece, isCapital e = false := h.plain _ List.mem_cons_self
    refine ⟨piece, rest, ⟨hjoined, ⟨piece, rest, rfl, hpiece⟩, h.opened, ?_⟩, ?_⟩
    · intro p hp
      rcases List.mem_cons.1 hp with rfl | hp
      · exact fun e he => hpiece e (List.mem_of_mem_tail he)
      · exact h.plain p (List.mem_cons_of_mem _ hp)
    · simp [Camel.extend, hd]
  | nil =>
    -- the first piece is empty, so the character opens the second
    cases rest with
    | nil => cases h.joined
    | cons second rest =>
      obtain ⟨d, piece, rfl, hd⟩ := h.opened second List.mem_cons_self
      obtain ⟨rfl, hjoined⟩ := List.cons.inj h.joined
      have hpiece : ∀ e ∈ piece, isCapital e = false :=
        h.plain _ (List.mem_cons_of_mem _ List.mem_cons_self)
      refine ⟨piece, rest, ⟨hjoined, ⟨piece, rest, rfl, hpiece⟩, ?_, ?_⟩, ?_⟩
      · exact fun p hp => h.opened p (List.mem_cons_of_mem _ hp)
      · intro p hp
        rcases List.mem_cons.1 hp with rfl | hp
        · exact fun e he => hpiece e (List.mem_of_mem_tail he)
        · exact h.plain p (List.mem_cons_of_mem _ (List.mem_cons_of_mem _ hp))
      · simp [Camel.extend, hd]

theorem pieces_cons (h : pieces cs = piece :: rest) : pieces (c :: cs) = extend c piece rest := by
  rw [pieces, h, extend]

/-- There is one way to cut a name, and `pieces` is it. -/
theorem cut_iff : Cut cs ps ↔ ps = pieces cs := by
  induction cs generalizing ps with
  | nil =>
    refine ⟨?_, ?_⟩
    · intro h
      obtain ⟨head, rest, rfl, -⟩ := h.first
      obtain ⟨rfl, hrest⟩ := List.append_eq_nil_iff.1 h.joined
      cases rest with
      | nil => rfl
      | cons second rest =>
        -- a second piece would begin with a capital, and there is no character left
        obtain ⟨d, piece, rfl, -⟩ := h.opened second List.mem_cons_self
        cases hrest
    · rintro rfl
      exact ⟨rfl, ⟨[], [], rfl, by simp⟩, by simp [pieces], by simp [pieces]⟩
  | cons c cs ih =>
    refine ⟨?_, ?_⟩
    · intro h
      obtain ⟨piece, rest, hcut, rfl⟩ := h.exists_extend
      exact (pieces_cons (ih.1 hcut).symm).symm
    · rintro rfl
      have hcut : Cut cs (pieces cs) := ih.2 rfl
      obtain ⟨piece, rest, hpieces, -⟩ := hcut.first
      rw [pieces_cons hpieces]
      rw [hpieces] at hcut
      exact hcut.extend

/-! ## Words -/

/-- The words of a name are, in order, the pieces of at least three characters in lower case, where
    the pieces are the only way to cut the name in front of its capital letters; no word has a
    capital letter. -/
theorem split_exact (name : String) :
    (∀ ps, Cut name.toList ps ↔ ps = pieces name.toList) ∧
      split name = ((pieces name.toList).filter fun piece => 3 ≤ piece.length).map
        (fun piece => lower (String.ofList piece)) ∧
      ∀ word ∈ split name, ∀ c ∈ word.toList, ¬('A' ≤ c ∧ c ≤ 'Z') := by
  refine ⟨fun ps => cut_iff, rfl, ?_⟩
  intro word hword c hc hcapital
  obtain ⟨piece, -, rfl⟩ := List.mem_map.1 hword
  have hfalse := isCapital_of_mem_lower hc
  simp [isCapital, hcapital] at hfalse

/-- A run of capitals falls into single letters, and the sigma is the last letter of its piece. -/
theorem split_exact_serverName :
    Cut "HTTPServerΟΔΟΣId".toList
        [[], ['H'], ['T'], ['T'], ['P'], "ServerΟΔΟΣ".toList, ['I', 'd']] ∧
      split "HTTPServerΟΔΟΣId" = ["serverοδος"] ∧
      ∀ c ∈ "serverοδος".toList, ¬('A' ≤ c ∧ c ≤ 'Z') := by
  obtain ⟨hcut, -, hwords⟩ := split_exact "HTTPServerΟΔΟΣId"
  have hsplit : split "HTTPServerΟΔΟΣId" = ["serverοδος"] := by decide +kernel
  refine ⟨(hcut _).2 (by with_unfolding_all rfl), hsplit, ?_⟩
  apply hwords
  rw [hsplit]
  exact List.mem_singleton_self _

end Camel
end PathTriage.Text
