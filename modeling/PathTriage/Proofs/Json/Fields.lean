import PathTriage.Json.Reader
import Mathlib.Data.List.Nodup

/-!
Tables by key, and the objects that a JSON text gives.

A table is searched from its front, so a key that stood twice would hide its second value. That
never happens to a table whose values were put in one after the other (`nodup_keys_ofPairs`), and so
to no object that was read (`distinctKeys_of_read`).

Keys are told apart as texts. Since every unpaired surrogate half is read as the replacement
character, keys that were spelled differently in such halves only count as one key, and the value of
the last of them stands.
-/

namespace PathTriage

namespace Fields

variable {β : Type} {key : String} {value : β} {table : Fields β}

/-! ## Looking up -/

theorem get?_cons (entry : String × β) (table : Fields β) (key : String) :
    get? key (entry :: table) = if entry.1 = key then some entry.2 else get? key table := rfl

/-- A look-up fails exactly for the keys that are not there. -/
theorem get?_eq_none_iff : get? key table = none ↔ key ∉ keys table := by
  induction table with
  | nil => simp [keys]
  | cons entry rest ih =>
    rw [get?_cons, keys, List.map_cons, List.mem_cons, not_or, ← keys, ← ih]
    by_cases h : entry.1 = key
    · simp [h]
    · simp [h, Ne.symm h]

theorem mem_keys_iff : key ∈ keys table ↔ ∃ value, get? key table = some value := by
  rw [← not_iff_not, ← get?_eq_none_iff, Option.eq_none_iff_forall_ne_some, not_exists]

/-- What a look-up gives stands in the table. -/
theorem mem_of_get? (h : get? key table = some value) : (key, value) ∈ table := by
  induction table with
  | nil => cases h
  | cons entry rest ih =>
    rw [get?_cons] at h
    split at h
    · next hkey =>
      cases h
      subst hkey
      exact List.mem_cons_self
    · exact List.mem_cons_of_mem entry (ih h)

/-- Where no key stands twice, an entry is what its key leads to. -/
theorem get?_of_mem (hkeys : (keys table).Nodup) (h : (key, value) ∈ table) :
    get? key table = some value := by
  induction table with
  | nil => cases h
  | cons entry rest ih =>
    obtain ⟨hfront, hrest⟩ := List.nodup_cons.1 hkeys
    rw [get?_cons]
    rcases List.mem_cons.1 h with rfl | h
    · exact if_pos rfl
    · have hmem : key ∈ keys rest := List.mem_map_of_mem (f := Prod.fst) h
      have hne : entry.1 ≠ key := by
        rintro rfl
        exact hfront hmem
      rw [if_neg hne, ih hrest h]

/-! ## Putting in -/

/-- Putting in a value keeps the place of a key that is there, and puts a new key at the end. -/
theorem keys_put : keys (put key value table) =
    if key ∈ keys table then keys table else keys table ++ [key] := by
  induction table with
  | nil => rfl
  | cons entry rest ih =>
    obtain ⟨k, v⟩ := entry
    show keys (if k = key then _ else _) = if key ∈ k :: keys rest then k :: keys rest else _
    by_cases h : k = key
    · subst h
      rw [if_pos rfl, if_pos List.mem_cons_self]
      rfl
    · have hmem : key ∈ k :: keys rest ↔ key ∈ keys rest := by simp [Ne.symm h]
      rw [if_neg h]
      simp only [hmem]
      show k :: keys (put key value rest) = _
      rw [ih]
      split <;> rfl

/-- So a key never stands twice on account of it. -/
theorem nodup_keys_put (h : (keys table).Nodup) : (keys (put key value table)).Nodup := by
  rw [keys_put]
  split
  · exact h
  · next hnew => exact List.Nodup.append h (List.nodup_singleton key) (by simpa using hnew)

/-- The table in which all of some keys have one value, whatever they had before. -/
def putAll (names : List String) (value : β) (table : Fields β) : Fields β :=
  names.foldl (fun table name => put name value table) table

variable {names : List String}

theorem putAll_append (names more : List String) :
    putAll (names ++ more) value table = putAll more value (putAll names value table) :=
  List.foldl_append

/-- After one value is put in under many names, it is what each of them leads to. -/
theorem get?_putAll : get? key (putAll names value table) =
    if key ∈ names then some value else get? key table := by
  induction names generalizing table with
  | nil => simp [putAll]
  | cons name rest ih =>
    show get? key (putAll rest value (put name value table)) = _
    rw [ih, get?_put]
    by_cases hrest : key ∈ rest
    · simp [hrest]
    · by_cases hname : name = key
      · simp [hname]
      · simp [hrest, hname, Ne.symm hname]

theorem get?_putAll_nil {other : β} :
    get? key (putAll names value []) = some other ↔ other = value ∧ key ∈ names := by
  rw [get?_putAll]
  by_cases h : key ∈ names
  · rw [if_pos h, and_iff_left h, Option.some.injEq, eq_comm]
  · rw [if_neg h]
    refine ⟨?_, fun hboth => absurd hboth.2 h⟩
    intro hnone
    cases hnone

theorem nodup_keys_putAll (h : (keys table).Nodup) : (keys (putAll names value table)).Nodup := by
  induction names generalizing table with
  | nil => exact h
  | cons name rest ih => exact ih (nodup_keys_put h)

/-- A table made of pairs one after the other has distinct keys, even if the pairs do not. -/
theorem nodup_keys_ofPairs (pairs : List (String × β)) : (keys (ofPairs pairs)).Nodup := by
  suffices hall : ∀ table : Fields β, (keys table).Nodup →
      (keys (pairs.foldl (fun table p => put p.1 p.2 table) table)).Nodup from
    hall [] List.nodup_nil
  induction pairs with
  | nil => exact fun _ h => h
  | cons pair rest ih => exact fun _ h => ih _ (nodup_keys_put h)

end Fields

namespace Json

/-! ## Objects that were read -/

/-- No key of an object stands twice, as a text: how it was spelled is not seen any more. -/
def DistinctKeys : Json → Prop
  | .object fields => (Fields.keys fields).Nodup
  | _ => True

namespace Token

/-- The values that have a word of their own are no objects. -/
theorem distinctKeys_of_mem_words : ∀ w ∈ words, w.2.DistinctKeys := by
  simp [words, DistinctKeys]

theorem distinctKeys_of_ofNumber {spelling : List Char} {n : Number} {v : Json}
    (h : ofNumber spelling n = .literal v) : v.DistinctKeys := by
  cases n with
  | int n =>
    simp only [ofNumber] at h
    split at h <;> cases h
    trivial
  | float x => cases h; trivial

/-- A single lexeme gives no object. -/
theorem distinctKeys_of_scan {position : Nat} {cs : List Char} {v : Json}
    (h : (scan position cs).1 = .literal v) : v.DistinctKeys := by
  unfold scan at h
  split at h
  case h_7 => split at h <;> cases h
  case h_8 =>
    split at h
    · next hword =>
      cases h
      exact distinctKeys_of_mem_words _ (List.mem_of_find?_eq_some hword)
    · split at h
      · exact distinctKeys_of_ofNumber h
      · cases h
  all_goals cases h

end Token

/-- No lexeme carries an object, so objects come from the reader alone. -/
theorem distinctKeys_of_mem_lexemes {position : Nat} {cs : List Char} {l : Lexeme} {v : Json}
    (hl : l ∈ lexemesFrom position cs) (h : l.token = .literal v) : v.DistinctKeys := by
  fun_induction lexemesFrom position cs with
  | case1 => cases hl
  | case2 _ _ _ _ ih => exact ih hl
  | case3 position c cs _ token length hscan ih =>
    rcases List.mem_cons.1 hl with rfl | hl
    · exact Token.distinctKeys_of_scan ((congrArg Prod.fst hscan).trans h)
    · exact ih hl

namespace Reader

/-- A reader that is done has read a value whose keys are distinct. -/
def Sound (r : Reader) : Prop := ∀ v, r.expect = .nothing v → v.DistinctKeys

/-- A value that is complete is the result, or goes into what is still open. -/
theorem sound_complete {v : Json} (h : v.DistinctKeys) (stack : List Open) :
    (complete v stack).Sound := by
  cases stack with
  | nil => rintro _ ⟨⟩; exact h
  | cons top stack => cases top <;> rintro _ ⟨⟩

/-- An object is made of its pairs at its closing brace. -/
theorem distinctKeys_closeObject (fields : List (String × Json)) :
    (closeObject fields).DistinctKeys := Fields.nodup_keys_ofPairs fields.reverse

/-- One lexeme keeps the reader sound: a result is a literal, an array or an object that was just
    closed. -/
theorem sound_of_step {r r' : Reader} {l : Lexeme} (h : step r l = .ok r')
    (hl : ∀ v, l.token = .literal v → v.DistinctKeys) : r'.Sound := by
  unfold step deeper at h
  split at h
  -- a value is complete
  case h_1 hv => cases h; exact sound_complete (hl _ hv) _
  case h_2 | h_6 | h_13 => cases h; apply sound_complete; trivial
  case h_9 | h_15 => cases h; exact sound_complete (distinctKeys_closeObject _) _
  -- an array or object is opened
  case h_3 | h_4 =>
    split at h
    · cases h; rintro _ ⟨⟩
    · cases h
  -- more is to come
  case h_8 | h_11 | h_12 | h_14 => cases h; rintro _ ⟨⟩
  all_goals cases h

/-- By induction on the lexemes. -/
theorem distinctKeys_of_run {length : Nat} {r : Reader} {ls : List Lexeme} {v : Json}
    (hr : r.Sound) (hls : ∀ l ∈ ls, ∀ v, l.token = .literal v → v.DistinctKeys)
    (h : run length r ls = .ok v) : v.DistinctKeys := by
  fun_induction run length r ls with
  | case1 result => cases h; exact hr _ rfl
  | case2 => cases h
  | case3 r l rest r' hstep ih =>
    exact ih (sound_of_step hstep (hls l List.mem_cons_self))
      (fun l hl => hls l (List.mem_cons_of_mem _ hl)) h
  | case4 => cases h

end Reader

/-- No object that was read has a key twice. -/
theorem distinctKeys_of_read {cs : List Char} {v : Json} (h : read cs = .ok v) :
    v.DistinctKeys := by
  unfold read at h
  simp only at h
  split at h
  · cases h
  · cases hrun : Reader.run cs.length Reader.start (lexemesFrom 0 cs) with
    | error e => rw [hrun] at h; cases h
    | ok v' =>
      rw [hrun] at h
      cases h
      refine Reader.distinctKeys_of_run ?_ (fun l hl v => distinctKeys_of_mem_lexemes hl) hrun
      rintro _ ⟨⟩

end Json
end PathTriage
