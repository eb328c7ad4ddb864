import Mathlib.Data.List.Forall2
import PathTriage.Payload.Field
import PathTriage.Proofs.MachineOrder

/-!
What a check accepts.

A value of a payload stands for something, whether or not that is within bounds: a `Meaning` says
for what. A check accepts a value exactly when what it stands for is within the bounds of the check,
and then gives just that: `Accepts`. The ways of building checks keep this. A list stands for the
list of what its items stand for, a field that may be absent stands for its usual value when it is,
and an object is read field by field, whatever other keys it has.

How numbers and truth values may be spelled is the matter of `integer`, `number` and `boolean`, and
their meanings take it from there.
-/

namespace PathTriage.Payload

variable {α β : Type}

/-! ## Valid parts -/

namespace Checked

/-- How a valid result came about, for each way of putting checks together. -/
theorem map_eq_valid {f : α → β} {a : Checked α} {b : β} :
    f <$> a = .valid b ↔ ∃ x, a = .valid x ∧ f x = b := by
  cases a with
  | valid x =>
    change Checked.valid (f x) = .valid b ↔ _
    simp
  | invalid first rest =>
    change Checked.invalid first rest = .valid b ↔ _
    simp

theorem seq_eq_valid {f : Checked (α → β)} {a : Checked α} {b : β} :
    f <*> a = .valid b ↔ ∃ g x, f = .valid g ∧ a = .valid x ∧ g x = b := by
  change both f a = .valid b ↔ _
  cases f with
  | valid g => cases a <;> simp [both]
  | invalid first rest => simp [both]

/-- Where a value stands matters to its problems only. -/
theorem inside_eq_valid {step : Step} {a : Checked α} {x : α} :
    a.inside step = .valid x ↔ a = .valid x := by
  cases a <;> simp [inside]

theorem andThen_eq_valid {a : Checked α} {f : α → Checked β} {b : β} :
    a.andThen f = .valid b ↔ ∃ x, a = .valid x ∧ f x = .valid b := by
  cases a <;> simp [andThen]

theorem mapped_eq_valid {f : α → β} {a : Checked α} {b : β} :
    a.map f = .valid b ↔ ∃ x, a = .valid x ∧ f x = b :=
  map_eq_valid

/-- All checks of a list are valid when each of them is, wherever the list stands. -/
theorem all_eq_valid {check : Check α} {items : List Json} {xs : List α} (place : Nat → Step) :
    all (items.mapIdx fun i v => (check v).inside (place i)) = .valid xs ↔
      List.Forall₂ (fun v x => check v = .valid x) items xs := by
  -- the rest of a list stands one place further on, so the place is free in the induction
  induction items generalizing xs place with
  | nil => cases xs <;> simp [all]
  | cons v items ih =>
    rw [List.mapIdx_cons, List.forall₂_cons_left_iff]
    change (map List.cons _ <*> all _) = .valid xs ↔ _
    simp only [seq_eq_valid, mapped_eq_valid, inside_eq_valid, ih]
    constructor
    · rintro ⟨_, ys, ⟨y, hy, rfl⟩, hys, rfl⟩
      exact ⟨y, ys, hy, hys, rfl⟩
    · rintro ⟨y, ys, hy, hys, rfl⟩
      exact ⟨_, ys, ⟨y, hy, rfl⟩, hys, rfl⟩

/-- A check gives a value or at least one problem, and never both. -/
theorem value?_or_problems (a : Checked α) :
    (∃ x, a.value? = some x) ∧ a.problems = [] ∨ a.value? = none ∧ a.problems ≠ [] := by
  cases a with
  | valid x => exact .inl ⟨⟨x, rfl⟩, rfl⟩
  | invalid first rest => exact .inr ⟨rfl, List.cons_ne_nil first rest⟩

theorem value?_eq_some {a : Checked α} {x : α} : a.value? = some x ↔ a = .valid x := by
  cases a <;> simp [value?]

end Checked

/-! ## Meanings -/

/-- What the values of a payload stand for. -/
abbrev Meaning (α : Type) := Json → α → Prop

namespace Meaning

def text : Meaning String := fun v s => v = .string s

def textOrNull : Meaning (Option String) := fun v s => v = .ofString? s

def integer : Meaning Int := fun v n => Payload.integer v = .valid n

def number : Meaning Float := fun v x => Payload.number v = .valid x

def flag : Meaning Bool := fun v b => boolean v = .valid b

/-- A name stands for the member that has it. -/
def member [Named α] : Meaning α := fun v a => v = .string (Named.name a)

/-- A list stands for what its items stand for, in order. -/
def list (meaning : Meaning α) : Meaning (List α) := fun v xs =>
  ∃ items, v = .array items ∧ List.Forall₂ meaning items xs

/-- An object stands for what its fields stand for together. -/
def object (meaning : Fields Json → α → Prop) : Meaning α := fun v x =>
  ∃ fields, v = .object fields ∧ meaning fields x

/-- What is read is kept in another form. -/
def as (meaning : Meaning α) (form : α → β) : Meaning β := fun v y =>
  ∃ x, meaning v x ∧ form x = y

end Meaning

/-- A field that has to be there stands for something. -/
def Given (fields : Fields Json) (name : String) (meaning : Meaning α) (x : α) : Prop :=
  ∃ v, fields.get? name = some v ∧ meaning v x

/-- A field that may be absent stands for something; without it that is the usual value. -/
def GivenOr (usual : α) (fields : Fields Json) (name : String) (meaning : Meaning α) (x : α) :
    Prop :=
  Given fields name meaning x ∨ fields.get? name = none ∧ x = usual

/-! ## Bounds -/

/-- A text has at least one character. -/
def IsNonEmpty (s : String) : Prop := s ≠ ""

/-- A value is a text of at least one character. -/
def IsName (v : Json) : Prop := ∃ s, IsNonEmpty s ∧ v = .string s

/-- A value is an integer that counts something. -/
def IsCount (v : Json) : Prop := ∃ n : Int, 0 ≤ n ∧ v = .ofInt n

/-- A complexity is an integer of at least one. -/
def IsComplexity (c : Number) : Prop := ∃ n : Int, 1 ≤ n ∧ c = .int n

/-- A value is a machine number of the unit interval. -/
def IsShare (v : Json) : Prop := ∃ x : Float, 0 ≤ x ∧ x ≤ 1 ∧ v = .ofFloat x

/-- There is no bound. -/
def Unbounded (_ : α) : Prop := True

/-! ## Checks of single values -/

/-- A check accepts a value for what it stands for, if that is within bounds. -/
def Accepts (check : Check α) (meaning : Meaning α) (bound : α → Prop) : Prop :=
  ∀ v x, check v = .valid x ↔ meaning v x ∧ bound x

/-- What was checked may be kept in another form, with the bound that goes with it. -/
theorem Accepts.as {check : Check α} {meaning : Meaning α} {bound : α → Prop}
    (h : Accepts check meaning bound) {form : α → β} {bound' : β → Prop}
    (hbound : ∀ x, bound' (form x) ↔ bound x) :
    Accepts (fun v => (check v).map form) (meaning.as form) bound' := by
  intro v y
  simp only [Checked.mapped_eq_valid, h v, Meaning.as]
  constructor
  · rintro ⟨x, ⟨hmeans, hx⟩, rfl⟩
    exact ⟨⟨x, hmeans, rfl⟩, (hbound x).2 hx⟩
  · rintro ⟨⟨x, hmeans, rfl⟩, hy⟩
    exact ⟨x, ⟨hmeans, (hbound x).1 hy⟩, rfl⟩

theorem accepts_text : Accepts text .text Unbounded := by
  intro v s
  cases v <;> simp [text, Meaning.text, Unbounded, Checked.fail]

/-- A text that must not be empty. -/
theorem accepts_nonEmptyText : Accepts nonEmptyText .text IsNonEmpty := by
  intro v s
  rw [nonEmptyText, Checked.andThen_eq_valid]
  simp only [accepts_text v, Unbounded, and_true]
  constructor
  · rintro ⟨t, ht, h⟩
    split at h
    · cases h
    · next hne =>
      cases h
      exact ⟨ht, by simpa [IsNonEmpty] using hne⟩
  · rintro ⟨hs, hne⟩
    exact ⟨s, hs, if_neg (by simpa [IsNonEmpty] using hne)⟩

theorem accepts_textOrNull : Accepts textOrNull .textOrNull Unbounded := by
  intro v s
  cases v <;> cases s <;>
    simp [textOrNull, text, Meaning.textOrNull, Json.ofString?, Unbounded, Checked.fail,
      Checked.map]

/-- An integer from a bound up, in any form that integers may come in. -/
theorem accepts_integerFrom (bound : Nat) :
    Accepts (integerFrom bound) .integer fun n => bound ≤ n := by
  intro v n
  rw [integerFrom, Checked.andThen_eq_valid, Meaning.integer]
  constructor
  · rintro ⟨k, hk, h⟩
    split at h
    · cases h
    · next hge =>
      cases h
      exact ⟨hk, Int.not_lt.1 hge⟩
  · rintro ⟨hn, hge⟩
    exact ⟨n, hn, if_neg (Int.not_lt.2 hge)⟩

/-- The check of the unit interval asks for both bounds to hold, which refuses what cannot be
    compared. -/
theorem accepts_unitNumber : Accepts unitNumber .number fun x => 0 ≤ x ∧ x ≤ 1 := by
  intro v x
  rw [unitNumber, Checked.andThen_eq_valid, Meaning.number]
  constructor
  · rintro ⟨y, hy, h⟩
    split at h
    · next hbelow =>
      split at h
      · next habove =>
        cases h
        exact ⟨hy, habove, hbelow⟩
      · cases h
    · cases h
  · rintro ⟨hx, habove, hbelow⟩
    exact ⟨x, hx, by rw [if_pos hbelow, if_pos habove]⟩

theorem accepts_boolean : Accepts boolean .flag Unbounded := by
  intro v b
  simp [Meaning.flag, Unbounded]

/-- A vocabulary in which every name leads back to its member is read by its names. -/
theorem accepts_member [Named α] (hnames : ∀ a : α, Named.ofName? (Named.name a) = some a) :
    Accepts (member α) .member Unbounded := by
  intro v a
  simp only [Meaning.member, Unbounded, and_true]
  constructor
  · intro h
    cases v with
    | string s =>
      rw [member] at h
      split at h
      · next a' ha' =>
        cases h
        rw [Named.name_of_ofName? ha']
      · cases h
    | _ => cases h
  · -- two members with one name would be read as the first of them
    rintro rfl
    rw [member, hnames a]

/-! ## Lists, fields and objects -/

variable {check : Check α} {meaning : Meaning α} {bound : α → Prop}

/-- Items are accepted one by one, and each of them has its own bound to meet. -/
theorem Accepts.items (h : Accepts check meaning bound) {items : List Json} {xs : List α} :
    List.Forall₂ (fun v x => check v = .valid x) items xs ↔
      List.Forall₂ meaning items xs ∧ ∀ x ∈ xs, bound x := by
  constructor
  · intro hvalid
    induction hvalid with
    | nil => simp
    | cons hv _ ih =>
      obtain ⟨hmeans, hbound⟩ := (h _ _).1 hv
      exact ⟨.cons hmeans ih.1, List.forall_mem_cons.2 ⟨hbound, ih.2⟩⟩
  · rintro ⟨hmeans, hbounds⟩
    induction hmeans with
    | nil => exact .nil
    | cons hv _ ih =>
      obtain ⟨hbound, hrest⟩ := List.forall_mem_cons.1 hbounds
      exact .cons ((h _ _).2 ⟨hv, hbound⟩) (ih hrest)

/-- A list is accepted when each of its items is. -/
theorem Accepts.list (h : Accepts check meaning bound) :
    Accepts (list check) (.list meaning) fun xs => ∀ x ∈ xs, bound x := by
  intro v xs
  cases v with
  | array items => simp [Payload.list, Meaning.list, Checked.all_eq_valid, h.items]
  | _ => simp [Payload.list, Meaning.list, Checked.fail]

/-- A field that has to be there. -/
theorem Accepts.required (h : Accepts check meaning bound) {fields : Fields Json} {name : String}
    {x : α} :
    required fields name check = .valid x ↔ Given fields name meaning x ∧ bound x := by
  rw [Payload.required, Given]
  cases fields.get? name with
  | none => simp [Checked.fail, Checked.inside]
  | some v => simp [Checked.inside_eq_valid, h v]

/-- A field that has to be there may be kept in another form. -/
theorem map_required (form : α → β) {fields : Fields Json} {name : String} :
    form <$> required fields name check =
      required fields name fun v => (check v).map form := by
  unfold Payload.required
  cases fields.get? name with
  | none => rfl
  | some v => cases h : check v <;> simp [h, Checked.inside, Checked.map, Functor.map]

/-- A field that may be left out; what then stands for it has to be in bounds itself. -/
theorem Accepts.optional (h : Accepts check meaning bound) {usual : α} (husual : bound usual)
    {fields : Fields Json} {name : String} {x : α} :
    optional fields name usual check = .valid x ↔
      GivenOr usual fields name meaning x ∧ bound x := by
  rw [Payload.optional, GivenOr, Given]
  cases fields.get? name with
  | none =>
    -- the check sees nothing here, so the usual value has to be within the bounds by itself
    simp only [reduceCtorEq, false_and, exists_const, false_or, true_and, Checked.valid.injEq]
    constructor
    · rintro rfl
      exact ⟨rfl, husual⟩
    · rintro ⟨rfl, -⟩
      rfl
  | some v => simp [Checked.inside_eq_valid, h v]

/-- An object is accepted when its fields are, and nothing else is an object. -/
theorem accepts_object {model : String} {check : Fields Json → Checked α}
    {meaning : Fields Json → α → Prop} {bound : α → Prop}
    (h : ∀ fields x, check fields = .valid x ↔ meaning fields x ∧ bound x) :
    Accepts (object model check) (.object meaning) bound := by
  intro v x
  cases v <;> simp [object, Meaning.object, Checked.fail, h]

end PathTriage.Payload
