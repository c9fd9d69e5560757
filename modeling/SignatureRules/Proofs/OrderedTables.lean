import Mathlib.Tactic.SplitIfs
import SignatureRules.Rule

namespace SignatureRules

def utf8Bytes (text : String) : List UInt8 := text.toList.flatMap String.utf8EncodeChar

theorem cons_lt_of_toNat_lt {v w : Nat} (h : v % 256 < w % 256) (xs ys : List UInt8) :
    UInt8.ofNat v :: xs < UInt8.ofNat w :: ys := by
  apply List.Lex.rel
  rwa [UInt8.lt_iff_toNat_lt, UInt8.toNat_ofNat', UInt8.toNat_ofNat']

/-- The codes of numbers below the bound are in the order of the numbers, whatever follows them. -/
def KeepsOrder (bound : Nat) (code : Nat → List UInt8) : Prop :=
  ∀ v w, v < w → w < bound → ∀ xs ys, code v ++ xs < code w ++ ys

theorem keepsOrder_lead {bound base : Nat} (h : bound + base ≤ 256) :
    KeepsOrder bound fun v => [.ofNat (v % bound + base)] := by
  intro v w hlt hw xs ys
  have hv : v < bound := Nat.lt_trans hlt hw
  refine cons_lt_of_toNat_lt ?_ xs ys
  rw [Nat.mod_eq_of_lt hv, Nat.mod_eq_of_lt hw]
  omega

theorem KeepsOrder.continued {bound : Nat} {code : Nat → List UInt8} (h : KeepsOrder bound code) :
    KeepsOrder (64 * bound) fun v => code (v / 64) ++ [.ofNat (v % 64 + 128)] := by
  intro v w hlt hw xs ys
  rw [List.append_assoc, List.append_assoc]
  by_cases hv : v / 64 < w / 64
  · exact h _ _ hv (Nat.div_lt_of_lt_mul hw) _ _
  · have he : v / 64 = w / 64 := by omega
    rw [he]
    apply List.append_left_lt
    exact cons_lt_of_toNat_lt (by omega) xs ys

theorem toNat_val_lt (c : Char) : c.val.toNat < 0x110000 := by
  rcases c.valid with h | ⟨-, h⟩
  · exact Nat.lt_trans h (by decide)
  · exact h

theorem utf8EncodeChar_append_lt {c d : Char} (h : c < d) (xs ys : List UInt8) :
    String.utf8EncodeChar c ++ xs < String.utf8EncodeChar d ++ ys := by
  have hlt : c.val.toNat < d.val.toNat := h
  have hd := toNat_val_lt d
  simp only [String.utf8EncodeChar]
  generalize c.val.toNat = v at hlt ⊢
  generalize d.val.toNat = w at hlt hd ⊢
  have h2 := (@keepsOrder_lead 32 192 (by decide)).continued v w hlt
  have h3 := (@keepsOrder_lead 16 224 (by decide)).continued.continued v w hlt
  have h4 := (@keepsOrder_lead 8 240 (by decide)).continued.continued.continued v w hlt
  simp only [Nat.div_div_eq_div_mul] at h2 h3 h4
  -- the first bytes decide, unless both codes have the same length
  split_ifs <;> try exact cons_lt_of_toNat_lt (by omega) _ _
  · exact h2 (by omega) xs ys
  · exact h3 (by omega) xs ys
  · exact h4 (by omega) xs ys

theorem flatMap_utf8EncodeChar_lt {cs ds : List Char} (h : cs < ds) :
    cs.flatMap String.utf8EncodeChar < ds.flatMap String.utf8EncodeChar := by
  induction h with
  | @nil d ds =>
    rw [List.flatMap_nil, List.flatMap_cons]
    obtain ⟨byte, bytes, hb⟩ := List.exists_cons_of_ne_nil (@String.utf8EncodeChar_ne_nil d)
    rw [hb]
    exact .nil
  | rel h => exact utf8EncodeChar_append_lt h _ _
  | cons _ ih => exact List.append_left_lt ih

theorem lt_of_not_lt {text other : String} (h : ¬ text < other) (hne : text ≠ other) :
    other < text :=
  Std.lt_of_le_of_ne (String.not_lt.mp h) hne.symm

theorem utf8Bytes_lt_iff {text other : String} :
    utf8Bytes text < utf8Bytes other ↔ text < other := by
  refine ⟨fun h => ?_, fun h => flatMap_utf8EncodeChar_lt h⟩
  apply Decidable.byContradiction
  intro hlt
  by_cases he : text = other
  · subst he
    exact List.lt_irrefl _ h
  · exact List.lt_asymm h (flatMap_utf8EncodeChar_lt (lt_of_not_lt hlt he))

namespace Table

variable {α : Type}

def Ascending (table : Table α) : Prop :=
  table.names.Pairwise fun name other => utf8Bytes name < utf8Bytes other

theorem ascending_iff {table : Table α} :
    table.Ascending ↔ table.entries.Pairwise fun entry other => entry.1 < other.1 := by
  simp only [Ascending, utf8Bytes_lt_iff, names, List.pairwise_map]

theorem ascending_empty : (empty : Table α).Ascending := List.Pairwise.nil

theorem mem_enter {name : String} {value : α} {entry : String × α} {entries : List (String × α)}
    (h : entry ∈ enter name value entries) : entry = (name, value) ∨ entry ∈ entries := by
  induction entries with
  | nil => exact .inl (List.mem_singleton.mp h)
  | cons first entries ih =>
    obtain ⟨other, held⟩ := first
    rw [enter] at h
    split at h
    · exact List.mem_cons.mp h
    · split at h
      · rcases List.mem_cons.mp h with h | h
        · exact .inl h
        · exact .inr (.tail _ h)
      · rcases List.mem_cons.mp h with rfl | h
        · exact .inr (.head _)
        · exact (ih h).imp_right (.tail _)

theorem names_subset_insert (name : String) (value : α) (table : Table α) :
    table.names ⊆ (table.insert name value).names := by
  obtain ⟨entries⟩ := table
  rw [Table.insert, names, names]
  induction entries with
  | nil => exact List.nil_subset _
  | cons first entries ih =>
    obtain ⟨other, held⟩ := first
    rw [enter]
    split
    · exact List.subset_cons_self _ _
    · split
      · rename_i he
        subst he
        exact List.Subset.refl _
      · exact List.cons_subset_cons _ ih

theorem pairwise_enter (name : String) (value : α) {entries : List (String × α)}
    (h : entries.Pairwise fun entry other => entry.1 < other.1) :
    (enter name value entries).Pairwise fun entry other => entry.1 < other.1 := by
  induction h with
  | nil => exact List.pairwise_singleton _ _
  | @cons first entries hfirst hentries ih =>
    obtain ⟨other, held⟩ := first
    rw [enter]
    split
    · rename_i hlt
      refine .cons (List.forall_mem_cons.mpr ⟨hlt, fun entry he => ?_⟩) (.cons hfirst hentries)
      exact String.lt_trans hlt (hfirst entry he)
    · rename_i hlt
      split
      · rename_i he
        subst he
        exact .cons hfirst hentries
      · rename_i hne
        refine .cons (fun entry he => ?_) ih
        rcases mem_enter he with rfl | he
        · exact lt_of_not_lt hlt hne
        · exact hfirst entry he

theorem Ascending.insert {table : Table α} (h : table.Ascending) (name : String) (value : α) :
    (table.insert name value).Ascending :=
  ascending_iff.mpr (pairwise_enter name value (ascending_iff.mp h))

def ofEntries (entries : List (String × α)) : Table α :=
  entries.foldl (fun table entry => table.insert entry.1 entry.2) empty

end Table

def lastValue? {α : Type} (name : String) (entries : List (String × α)) : Option α :=
  entries.reverse.lookup name

namespace Table

variable {α : Type}

theorem get?_foldl_insert (name : String) (entries : List (String × α)) (table : Table α) :
    (entries.foldl (fun table entry => table.insert entry.1 entry.2) table).get? name =
      (lastValue? name entries).or (table.get? name) := by
  induction entries generalizing table with
  | nil => rfl
  | cons entry entries ih =>
    obtain ⟨other, held⟩ := entry
    rw [List.foldl_cons, ih, get?_insert, lastValue?, lastValue?, List.reverse_cons,
      List.lookup_append, Option.or_assoc]
    congr 1
    by_cases h : name = other
    · simp [h]
    · have hb : (name == other) = false := by simp [h]
      simp [h, hb, List.lookup_cons]

theorem get?_ofEntries (name : String) (entries : List (String × α)) :
    (ofEntries entries).get? name = lastValue? name entries := by
  rw [ofEntries, get?_foldl_insert, get?_empty, Option.or_none]

theorem Ascending.foldl_insert {table : Table α} (h : table.Ascending)
    (entries : List (String × α)) :
    (entries.foldl (fun table entry => table.insert entry.1 entry.2) table).Ascending := by
  induction entries generalizing table with
  | nil => exact h
  | cons entry entries ih => exact ih (h.insert entry.1 entry.2)

theorem ascending_ofEntries (entries : List (String × α)) : (ofEntries entries).Ascending :=
  ascending_empty.foldl_insert entries

end Table

end SignatureRules
