import OperationAtlas.Host.Decode
import OperationAtlas.Proofs.Chain
import OperationAtlas.Proofs.OrderedMap

/-!
# How records are written and read

A record is written as an object. A slot says for one part of the record under which key it stands,
which drafts write it and whether it may be left out. The members of an object write a record
(`WritesRecord`) if no key repeats, each slot is written or left out, and every other member is
allowed.

The decoder goes through the members in their order and looks for its keys afterwards, once or
several times, each time with other keys of its own. Each time it passes over the members
(`WritesRecord.scan`), and then finds the value of each slot (`Reads.required`,
`Reads.optional`).
-/

namespace OperationAtlas.Decode

/-! ## Records -/

/-- A part of a record: its key, whether it may be left out, and the drafts that write it. -/
structure Slot where
  key : String
  mayMiss : Prop
  writes : Draft → Prop

/-- A part that must be written. -/
def Slot.must (key : String) (writes : Draft → Prop) : Slot :=
  ⟨key, False, writes⟩

/-- A part that may be left out if it has its default value. -/
def Slot.may {α : Type} (key : String) (writes : α → Draft → Prop) (default value : α) : Slot :=
  ⟨key, value = default, writes value⟩

/-- Members whose keys are texts. -/
def entries (members : List (String × Draft)) : List (Option String × Draft) :=
  members.map fun member => (some member.1, member.2)

/-- An object with members whose keys are texts. -/
def object (members : List (String × Draft)) : Draft :=
  .object (entries members) true

/-- A slot is written by one of the members, or left out. -/
def Slot.IsWritten (slot : Slot) (members : List (String × Draft)) : Prop :=
  (∃ draft, (slot.key, draft) ∈ members ∧ slot.writes draft) ∨
    slot.mayMiss ∧ slot.key ∉ members.map (·.1)

/-- The members write a record. -/
structure WritesRecord (slots : List Slot) (extra : Draft → Prop)
    (members : List (String × Draft)) : Prop where
  /-- No key repeats. -/
  nodup : (members.map (·.1)).Nodup
  /-- Each part is written, or left out. -/
  written : ∀ slot ∈ slots, slot.IsWritten members
  /-- The values under other keys are allowed. -/
  allowed : ∀ member ∈ members, member.1 ∉ slots.map (·.key) → extra member.2

/-- A draft of a record. -/
def IsRecord (slots : List Slot) (extra : Draft → Prop) (draft : Draft) : Prop :=
  ∃ members, draft = object members ∧ WritesRecord slots extra members

variable {slots : List Slot} {extra : Draft → Prop} {members : List (String × Draft)} {keys : Keys}
  {key : String} {draft : Draft}

/-- The member with the key of a slot writes the slot. -/
theorem WritesRecord.writes (h : WritesRecord slots extra members) {slot : Slot}
    (hslot : slot ∈ slots) (hmem : (slot.key, draft) ∈ members) : slot.writes draft := by
  rcases h.written slot hslot with ⟨draft', hmem', hwrites⟩ | ⟨-, habsent⟩
  · have hlookup := OrderedMap.lookup_of_mem h.nodup hmem
    rw [OrderedMap.lookup_of_mem h.nodup hmem', Option.some.injEq] at hlookup
    exact hlookup ▸ hwrites
  · exact absurd (List.mem_map_of_mem hmem) habsent

/-- A property of all drafts that write a slot, and of all that are allowed under other keys, is one
of all values of a record. -/
theorem WritesRecord.forall_mem (h : WritesRecord slots extra members) {p : String → Draft → Prop}
    (hslots : ∀ slot ∈ slots, ∀ draft, slot.writes draft → p slot.key draft)
    (hextra : ∀ key draft, key ∉ slots.map (·.key) → extra draft → p key draft) :
    ∀ member ∈ members, p member.1 member.2 := by
  rintro ⟨key, draft⟩ hmem
  by_cases hkey : key ∈ slots.map (·.key)
  · obtain ⟨slot, hslot, rfl⟩ := List.mem_map.1 hkey
    exact hslots slot hslot draft (h.writes hslot hmem)
  · exact hextra key draft hkey (h.allowed _ hmem hkey)

/-! ## Looking for keys -/

/-- The first value of a key in a list of pairs is the value of the key in the list as a map. -/
theorem lookup_eq {α : Type} (pairs : List (String × α)) (key : String) :
    pairs.lookup key = OrderedMap.lookup key pairs := by
  induction pairs with
  | nil => rfl
  | cons pair pairs ih =>
    obtain ⟨first, value⟩ := pair
    rw [List.lookup_cons, OrderedMap.lookup_cons, ih]
    by_cases h : key = first
    · rw [if_pos h.symm, beq_iff_eq.2 h]
    · rw [if_neg (Ne.symm h), beq_false_of_ne h]

theorem find?_entries (members : List (String × Draft)) (key : String) :
    find? (entries members) key = OrderedMap.lookup key members := by
  rw [← lookup_eq, find?, entries]
  induction members with
  | nil => rfl
  | cons member members ih =>
    rw [List.map_cons, List.lookup_cons, List.lookup_cons, ih]
    rfl

/-- What writes a value is decoded as that value. -/
def Reads {α : Type} (decode : Decoder α) (writes : α → Draft → Prop) : Prop :=
  ∀ ⦃value draft⦄, writes value draft → decode draft = .ok value

variable {α : Type} {decode : Decoder α} {writes : α → Draft → Prop} {value default : α}

theorem Reads.check (h : Reads decode writes) (hdraft : writes value draft) :
    check decode draft = .ok () := by
  rw [Decode.check, h hdraft]
  rfl

/-- A part that must be written is found. -/
theorem Reads.required (hreads : Reads decode writes) (hnodup : (members.map (·.1)).Nodup)
    (h : (Slot.must key (writes value)).IsWritten members) :
    Decode.required (entries members) key decode = .ok value := by
  rcases h with ⟨draft, hmem, hwrites⟩ | ⟨hmiss, -⟩
  · have hlookup : OrderedMap.lookup key members = some draft :=
      OrderedMap.lookup_of_mem hnodup hmem
    rw [Decode.required, find?_entries, hlookup]
    exact hreads hwrites
  · exact hmiss.elim

/-- A part that may be left out is found, or has its default value. -/
theorem Reads.optional (hreads : Reads decode writes) (hnodup : (members.map (·.1)).Nodup)
    (h : (Slot.may key writes default value).IsWritten members) :
    Decode.optional (entries members) key decode default = .ok value := by
  rcases h with ⟨draft, hmem, hwrites⟩ | ⟨hmiss, habsent⟩
  · have hlookup : OrderedMap.lookup key members = some draft :=
      OrderedMap.lookup_of_mem hnodup hmem
    rw [Decode.optional, find?_entries, hlookup]
    exact hreads hwrites
  · have hlookup : OrderedMap.lookup key members = none := OrderedMap.lookup_eq_none_iff.2 habsent
    rw [Decode.optional, find?_entries, hlookup]
    exact congrArg Except.ok (Eq.symm hmiss)

/-! ## Going through the members -/

/-- The check of a value under a key. -/
def Keys.check (keys : Keys) (key : String) : Decoder Unit :=
  match keys.known.lookup key with
  | some checkValue => checkValue
  | none => keys.other key

/-- The check of a key that is none of the record's own. -/
theorem Keys.check_of_not_mem (h : key ∉ keys.known.map (·.1)) :
    keys.check key = keys.other key := by
  rw [check, lookup_eq, OrderedMap.lookup_eq_none_iff.2 h]

/-- Members with distinct keys whose values pass are passed over. -/
theorem scan_append (seen : List String) (hnodup : (members.map (·.1)).Nodup)
    (hseen : ∀ key ∈ members.map (·.1), key ∉ seen)
    (hpass : ∀ member ∈ members, keys.check member.1 member.2 = .ok ())
    (behind : List (Option String × Draft)) :
    ∃ seen', scan keys seen (entries members ++ behind) = scan keys seen' behind := by
  induction members generalizing seen with
  | nil => exact ⟨seen, rfl⟩
  | cons member members ih =>
    obtain ⟨key, draft⟩ := member
    rw [List.map_cons, List.nodup_cons] at hnodup
    obtain ⟨hkey, hkeys⟩ := List.forall_mem_cons.1 hseen
    obtain ⟨hdraft, hdrafts⟩ := List.forall_mem_cons.1 hpass
    have hothers : ∀ other ∈ members.map (·.1), other ∉ key :: seen := fun other hother =>
      List.not_mem_cons_of_ne_of_not_mem (fun heq => hnodup.1 (heq ▸ hother)) (hkeys other hother)
    rw [entries, List.map_cons, List.cons_append, Decode.scan]
    unfold Keys.check at hdraft
    cases hlookup : keys.known.lookup key with
    | none =>
      simp only [hlookup] at hdraft
      simp only [hdraft, ok_bind]
      exact ih seen hnodup.2 hkeys hdrafts
    | some checkValue =>
      simp only [hlookup] at hdraft
      simp only [hdraft, ok_bind, List.contains_iff_mem, hkey, if_false]
      exact ih (key :: seen) hnodup.2 hothers hdrafts

/-- The members of a record are passed over. -/
theorem WritesRecord.scan (h : WritesRecord slots extra members) (keys : Keys)
    (hslots : ∀ slot ∈ slots, ∀ draft, slot.writes draft → keys.check slot.key draft = .ok ())
    (hknown : keys.known.map (·.1) ⊆ slots.map (·.key))
    (hextra : ∀ key draft, extra draft → keys.other key draft = .ok ()) :
    Decode.scan keys [] (entries members) = .ok () := by
  have hpass := h.forall_mem (p := fun key draft => keys.check key draft = .ok ()) hslots
    fun key draft hkey hdraft => by
      rw [Keys.check_of_not_mem fun hmem => hkey (hknown hmem)]
      exact hextra key draft hdraft
  obtain ⟨seen, hscan⟩ := scan_append [] h.nodup (fun _ _ => List.not_mem_nil) hpass []
  rw [List.append_nil] at hscan
  rw [hscan]
  rfl

/-- Behind members that pass, a key that is none of the record's own fails as its check does. -/
theorem scan_of_unknown {front : List (String × Draft)} {error : DecodeError}
    (hnodup : (front.map (·.1)).Nodup)
    (hpass : ∀ member ∈ front, keys.check member.1 member.2 = .ok ())
    (hunknown : key ∉ keys.known.map (·.1)) (hother : keys.other key draft = .error error)
    (back : List (String × Draft)) :
    Decode.scan keys [] (entries (front ++ (key, draft) :: back)) = .error error := by
  obtain ⟨seen, hscan⟩ := scan_append [] hnodup (fun _ _ => List.not_mem_nil) hpass
    (entries ((key, draft) :: back))
  have hlookup : keys.known.lookup key = none := by
    rw [lookup_eq, OrderedMap.lookup_eq_none_iff.2 hunknown]
  rw [entries, List.map_append]
  refine hscan.trans ?_
  rw [entries, List.map_cons, Decode.scan]
  simp only [hlookup, hother, error_bind]

end OperationAtlas.Decode
