import PathTriage.Model.Method
import Mathlib

/-!
Reading the parts of a method's id back.

An id is written with marks: `#` behind the class, `(` behind the name, and commas between the
parameters. What stands in front of a mark is read back when it does not contain the mark itself,
whatever follows. So the class is read off an id even where the other parts contain marks, and all
parts are told by the id when each is free of the mark that ends it.
-/

namespace PathTriage

/-! ## Cutting at a mark -/

namespace Text

variable {mark : Char} {as bs xs ys : List Char} {s t : String}

theorem takeWhile_ne_append (h : mark ∉ as) :
    (as ++ mark :: xs).takeWhile (· != mark) = as := by
  have hkept : ∀ c ∈ as, (c != mark) = true := fun c hc => bne_iff_ne.2 fun heq => h (heq ▸ hc)
  rw [List.takeWhile_append_of_pos hkept, List.takeWhile_cons_of_neg (by simp), List.append_nil]

/-- A text tells what stands in front of its first mark and what stands behind it. -/
theorem append_mark_inj (ha : mark ∉ as) (hb : mark ∉ bs)
    (h : as ++ mark :: xs = bs ++ mark :: ys) :
    as = bs ∧ xs = ys := by
  have hfront := congrArg (List.takeWhile (· != mark)) h
  rw [takeWhile_ne_append ha, takeWhile_ne_append hb] at hfront
  subst hfront
  exact ⟨rfl, (List.cons.inj (List.append_cancel_left h)).2⟩

theorem beforeFirst_eq (hs : mark ∉ s.toList) (h : t.toList = s.toList ++ mark :: xs) :
    beforeFirst mark t = s := by
  rw [beforeFirst, h, takeWhile_ne_append hs, String.ofList_toList]

theorem afterLast_eq (hs : mark ∉ s.toList) (h : t.toList = xs ++ mark :: s.toList) :
    afterLast mark t = s := by
  -- from behind, the last mark is the first
  have hreverse : t.toList.reverse = s.toList.reverse ++ mark :: xs.reverse := by simp [h]
  rw [afterLast, hreverse, takeWhile_ne_append (by simpa using hs), List.reverse_reverse,
    String.ofList_toList]

theorem afterLast_of_not_mem (hs : mark ∉ s.toList) : afterLast mark s = s := by
  have hkept : s.toList.reverse.takeWhile (· != mark) = s.toList.reverse := by
    rw [List.takeWhile_eq_self_iff]
    intro c hc
    exact bne_iff_ne.2 fun heq => hs (heq ▸ List.mem_reverse.1 hc)
  rw [afterLast, hkept, List.reverse_reverse, String.ofList_toList]

/-! ## Joining with a mark -/

variable {ps qs : List (List Char)}

theorem eq_nil_of_intercalate (hps : ∀ p ∈ ps, p ≠ []) (h : [mark].intercalate ps = []) :
    ps = [] := by
  cases ps with
  | nil => rfl
  | cons p ps =>
    have hp : p ≠ [] := hps p List.mem_cons_self
    cases ps with
    | nil => exact absurd (by simpa using h) hp
    | cons q ps =>
      rw [List.intercalate_cons_cons, List.append_assoc] at h
      exact absurd (List.append_eq_nil_iff.1 h).1 hp

/-- Texts joined with a mark are told by the whole, when none of them has the mark or is empty. -/
theorem intercalate_mark_inj (hps : ∀ p ∈ ps, p ≠ [] ∧ mark ∉ p) (hqs : ∀ q ∈ qs, q ≠ [] ∧ mark ∉ q)
    (h : [mark].intercalate ps = [mark].intercalate qs) : ps = qs := by
  -- no texts at all are joined to the same as one empty text, so these cases come first
  by_cases hp : ps = []
  · subst hp
    exact (eq_nil_of_intercalate (fun q hq => (hqs q hq).1) h.symm).symm
  by_cases hq : qs = []
  · subst hq
    exact absurd (eq_nil_of_intercalate (fun p hp => (hps p hp).1) h) hp
  calc ps = ([mark].intercalate ps).splitOn mark :=
        (List.splitOn_intercalate mark (fun p hp => (hps p hp).2) hp).symm
    _ = ([mark].intercalate qs).splitOn mark := by rw [h]
    _ = qs := List.splitOn_intercalate mark (fun q hq => (hqs q hq).2) hq

end Text

/-- The simple name of a class is read off its qualified name. -/
theorem ClassEntry.afterLast_idOf {p s : String} (hs : '.' ∉ s.toList) :
    Text.afterLast '.' (ClassEntry.idOf p s) = s := by
  rw [ClassEntry.idOf]
  split
  · exact Text.afterLast_of_not_mem hs
  · have hchars : (p ++ "." ++ s).toList = p.toList ++ '.' :: s.toList := by simp
    exact Text.afterLast_eq hs hchars

/-! ## Ids -/

namespace Method

variable {c c' n n' : String} {ps ps' : List String}

theorem toList_idOf (c n : String) (ps : List String) :
    (idOf c n ps).toList =
      c.toList ++ '#' ::
        (n.toList ++ '(' :: ([','].intercalate (ps.map String.toList) ++ [')'])) := by
  simp [idOf, String.toList_intercalate]

theorem beforeFirst_idOf (hc : '#' ∉ c.toList) : Text.beforeFirst '#' (idOf c n ps) = c :=
  Text.beforeFirst_eq hc (toList_idOf c n ps)

/-- No part of an id has the mark that ends it, and no parameter is empty. -/
structure Separable (c n : String) (ps : List String) : Prop where
  hash : '#' ∉ c.toList
  parenthesis : '(' ∉ n.toList
  params : ∀ p ∈ ps, p ≠ "" ∧ ',' ∉ p.toList

theorem Separable.params_toList (h : Separable c n ps) :
    ∀ cs ∈ ps.map String.toList, cs ≠ [] ∧ ',' ∉ cs := by
  intro cs hcs
  obtain ⟨p, hp, rfl⟩ := List.mem_map.1 hcs
  obtain ⟨hne, hcomma⟩ := h.params p hp
  exact ⟨fun hnil => hne (String.toList_eq_nil_iff.1 hnil), hcomma⟩

/-- Separable parts are told by the id. -/
theorem idOf_inj (h : Separable c n ps) (h' : Separable c' n' ps')
    (heq : idOf c n ps = idOf c' n' ps') : c = c' ∧ n = n' ∧ ps = ps' := by
  have hchars := congrArg String.toList heq
  rw [toList_idOf, toList_idOf] at hchars
  -- each mark is the first of its kind behind the part before, so the parts come off one by one
  obtain ⟨hclass, hchars⟩ := Text.append_mark_inj h.hash h'.hash hchars
  obtain ⟨hname, hchars⟩ := Text.append_mark_inj h.parenthesis h'.parenthesis hchars
  have hparams := Text.intercalate_mark_inj h.params_toList h'.params_toList
    (List.append_cancel_right hchars)
  exact ⟨String.toList_injective hclass, String.toList_injective hname,
    List.map_injective_iff.2 (fun _ _ => String.toList_injective) hparams⟩

/-- Ids can be read back. A method whose id was made for a class has that class, if the class has no
    `#`, and the simple name of the class, if that has no dot; and no two triples of separable parts
    have the same id. -/
theorem idOf_decodable :
    (∀ (c n : String) (ps : List String) (m : Method), '#' ∉ c.toList → m.id = idOf c n ps →
      m.classId = c ∧ ∀ p s, c = ClassEntry.idOf p s → '.' ∉ s.toList → m.className = s) ∧
    ∀ (c n : String) (ps : List String) (c' n' : String) (ps' : List String),
      Separable c n ps → Separable c' n' ps' → idOf c n ps = idOf c' n' ps' →
        c = c' ∧ n = n' ∧ ps = ps' := by
  refine ⟨?_, fun _ _ _ _ _ _ => idOf_inj⟩
  intro c n ps m hc hid
  have hclass : m.classId = c := by rw [classId, hid, beforeFirst_idOf hc]
  refine ⟨hclass, ?_⟩
  rintro p s rfl hs
  rw [className, hclass, ClassEntry.afterLast_idOf hs]

/-- Marks elsewhere in an id do not matter: the class is read back in front of a second `#`, and its
    simple name behind the last of its own dots. A parenthesis that moves from one parameter to the
    next changes the id. -/
theorem idOf_decodable_nested :
    '#' ∉ "shop.v1.Order(2)".toList ∧ '.' ∉ "Order(2)".toList ∧
      classId { id := "shop.v1.Order(2)#place#1.5(Map<A#B>,(int)", name := "place#1.5" } =
        "shop.v1.Order(2)" ∧
      className { id := "shop.v1.Order(2)#place#1.5(Map<A#B>,(int)", name := "place#1.5" } =
        "Order(2)" ∧
      Separable "Order" "place#" ["a(", "b"] ∧ Separable "Order" "place#" ["a", "(b"] ∧
      idOf "Order" "place#" ["a(", "b"] ≠ idOf "Order" "place#" ["a", "(b"] := by
  obtain ⟨hread, htold⟩ := idOf_decodable
  obtain ⟨hclass, hname⟩ := hread "shop.v1.Order(2)" "place#1.5" ["Map<A#B>", "(int"]
    { id := "shop.v1.Order(2)#place#1.5(Map<A#B>,(int)", name := "place#1.5" } (by decide)
    (by decide)
  have hfirst : Separable "Order" "place#" ["a(", "b"] := ⟨by decide, by decide, by decide⟩
  have hsecond : Separable "Order" "place#" ["a", "(b"] := ⟨by decide, by decide, by decide⟩
  refine ⟨by decide, by decide, hclass, hname "shop.v1" "Order(2)" (by decide) (by decide), hfirst,
    hsecond, ?_⟩
  intro heq
  exact absurd (htold _ _ _ _ _ _ hfirst hsecond heq).2.2 (by decide)

/-- Parts that are not separable may share an id: by a `#` in the class, a parenthesis in the name,
    an empty parameter or a comma in one. -/
example : idOf "A#b" "c" [] = idOf "A" "b#c" [] ∧ idOf "A" "f(" ["x"] = idOf "A" "f" ["(x"] ∧
    idOf "A" "f" [""] = idOf "A" "f" [] ∧ idOf "A" "f" ["x,y"] = idOf "A" "f" ["x", "y"] := by
  decide

end Method
end PathTriage
