import OperationAtlas.Json.Printer
import OperationAtlas.Proofs.Json.Scalars
import OperationAtlas.Proofs.Json.Texts
import OperationAtlas.Proofs.OrderedMap

/-!
# Printed values are read back

A value without doubles, whose integers have 64 bits and whose objects repeat no key
(`Json.IsPlain`), is read from its lines as itself (`Json.parse?_toPretty`), whatever characters its
strings have and however deep it is nested: its lines are a text of its draft
(`Json.IsPlain.spells`).
-/

namespace OperationAtlas

open Draft JsonNumber

/-- A value without doubles, whose integers have 64 bits and whose objects repeat no key. -/
inductive Json.IsPlain : Json → Prop
  | null : IsPlain .null
  | bool (value : Bool) : IsPlain (.bool value)
  | int {value : Int} (h : FitsWord value) : IsPlain (.number (.int value))
  | string (text : String) : IsPlain (.string text)
  | array {items : List Json} (h : ∀ item ∈ items, IsPlain item) : IsPlain (.array items)
  | object {members : List (String × Json)} (hkeys : (members.map (·.1)).Nodup)
      (h : ∀ member ∈ members, IsPlain member.2) : IsPlain (.object members)

namespace Json

/-! ## The lines of a value -/

/-- The start of a line is blank. -/
theorem isBlank_lineStart (level : Nat) : IsBlank (lineStart level) :=
  List.forall_mem_cons.2 ⟨rfl, fun _ hc => (List.eq_of_mem_replicate hc) ▸ rfl⟩

theorem isBlank_space : IsBlank [' '] :=
  List.forall_mem_singleton.2 rfl

/-- What is written for a string is a text of it. -/
theorem spells_write (text : String) : Spells (Quoted.write text.toList) (.string (some text)) := by
  obtain ⟨pieces, hspells, hmeans⟩ := Quoted.exists_pieces_of_escape text.toList
  exact .string hspells hmeans

theorem prettyItems_cons_cons (level : Nat) (item second : Json) (items : List Json) :
    prettyItems level (item :: second :: items) =
      lineStart level ++ pretty level item ++ ',' :: prettyItems level (second :: items) := by
  rw [prettyItems]
  nofun

theorem prettyMembers_cons_cons (level : Nat) (key : String) (value : Json)
    (second : String × Json) (members : List (String × Json)) :
    prettyMembers level ((key, value) :: second :: members) =
      lineStart level ++ Quoted.write key.toList ++ ':' :: ' ' :: pretty level value ++
        ',' :: prettyMembers level (second :: members) := by
  rw [prettyMembers]
  nofun

/-- Items in lines are texts with commas between them; blanks may stand behind the last one. -/
theorem exists_parts_of_prettyItems {level : Nat} {blanks : List Char} (hblanks : IsBlank blanks)
    {items : List Json} (hne : items ≠ [])
    (h : ∀ item ∈ items, Spells (item.pretty level) (ofJson item)) :
    ∃ parts : List (List Char × Draft), parts ≠ [] ∧ (∀ part ∈ parts, Spells part.1 part.2) ∧
      parts.map (·.2) = ofItems items ∧
      [','].intercalate (parts.map (·.1)) = prettyItems level items ++ blanks := by
  induction items with
  | nil => exact absurd rfl hne
  | cons item items ih =>
    obtain ⟨hitem, hothers⟩ := List.forall_mem_cons.1 h
    have hline : ∀ {behind}, IsBlank behind →
        Spells (lineStart level ++ (item.pretty level ++ behind)) (ofJson item) :=
      hitem.blanks (isBlank_lineStart level)
    cases items with
    | nil =>
      refine ⟨[(_, ofJson item)], List.cons_ne_nil _ _, List.forall_mem_singleton.2 (hline hblanks),
        rfl, ?_⟩
      simp [prettyItems]
    | cons second items =>
      obtain ⟨parts, hparts, hspells, hdrafts, htext⟩ := ih (List.cons_ne_nil second items) hothers
      refine ⟨(_, ofJson item) :: parts, List.cons_ne_nil _ _,
        List.forall_mem_cons.2 ⟨hline isBlank_nil, hspells⟩, congrArg (_ :: ·) hdrafts, ?_⟩
      rw [List.map_cons, List.intercalate_cons_of_ne_nil (by simpa using hparts), htext,
        prettyItems_cons_cons]
      simp

/-- Members in lines are texts with commas between them; blanks may stand behind the last one. -/
theorem exists_parts_of_prettyMembers {level : Nat} {blanks : List Char} (hblanks : IsBlank blanks)
    {members : List (String × Json)} (hne : members ≠ [])
    (h : ∀ member ∈ members, Spells (member.2.pretty level) (ofJson member.2)) :
    ∃ parts : List MemberText, parts ≠ [] ∧
      (∀ part ∈ parts, Spells part.keyText (.string part.key)) ∧
      (∀ part ∈ parts, Spells part.valueText part.value) ∧
      parts.map (fun part => (part.key, part.value)) = ofMembers members ∧
      [','].intercalate (parts.map (·.text)) = prettyMembers level members ++ blanks := by
  induction members with
  | nil => exact absurd rfl hne
  | cons member members ih =>
    obtain ⟨key, value⟩ := member
    obtain ⟨hvalue, hothers⟩ := List.forall_mem_cons.1 h
    have hkey := (spells_write key).blanks (isBlank_lineStart level) isBlank_nil
    have hline : ∀ {behind}, IsBlank behind →
        Spells ([' '] ++ (value.pretty level ++ behind)) (ofJson value) :=
      hvalue.blanks isBlank_space
    cases members with
    | nil =>
      refine ⟨[⟨_, some key, _, ofJson value⟩], List.cons_ne_nil _ _,
        List.forall_mem_singleton.2 hkey, List.forall_mem_singleton.2 (hline hblanks), rfl, ?_⟩
      simp [prettyMembers, MemberText.text]
    | cons second members =>
      obtain ⟨parts, hparts, hkeys, hvalues, hdrafts, htext⟩ :=
        ih (List.cons_ne_nil second members) hothers
      refine ⟨⟨_, some key, _, ofJson value⟩ :: parts, List.cons_ne_nil _ _,
        List.forall_mem_cons.2 ⟨hkey, hkeys⟩,
        List.forall_mem_cons.2 ⟨hline isBlank_nil, hvalues⟩, congrArg (_ :: ·) hdrafts, ?_⟩
      rw [List.map_cons, List.intercalate_cons_of_ne_nil (by simpa using hparts), htext,
        prettyMembers_cons_cons]
      simp [MemberText.text]

/-- The lines of a plain value are a text of its draft. -/
theorem IsPlain.spells {value : Json} (h : value.IsPlain) :
    ∀ level, Spells (value.pretty level) (ofJson value) := by
  induction h with
  | null => exact fun _ => .nullWord
  | bool value =>
    intro level
    cases value with
    | true => exact .trueWord
    | false => exact .falseWord
  | int h => exact fun _ => .number (JsonNumber.spells_write h)
  | string text => exact fun _ => spells_write text
  | @array items hplain ih =>
    intro level
    cases items with
    | nil => exact .emptyArray isBlank_nil
    | cons item items =>
      obtain ⟨parts, hne, hspells, hdrafts, htext⟩ := exists_parts_of_prettyItems
        (isBlank_lineStart level) (List.cons_ne_nil item items) fun item hitem => ih item hitem _
      rw [pretty, ofJson, ← htext, ← hdrafts]
      exact .array parts hne hspells
  | @object members hkeys hplain ih =>
    intro level
    cases members with
    | nil => exact .emptyObject isBlank_nil
    | cons member members =>
      obtain ⟨parts, hne, hkeys, hvalues, hdrafts, htext⟩ := exists_parts_of_prettyMembers
        (isBlank_lineStart level) (List.cons_ne_nil member members) fun member hmember =>
          ih member hmember _
      rw [pretty, ofJson, ← htext, ← hdrafts]
      exact .object parts hne hkeys hvalues

/-! ## The value of a draft -/

theorem itemsToJson?_ofItems : ∀ {items : List Json},
    (∀ item ∈ items, (ofJson item).toJson? = some item) →
      itemsToJson? (ofItems items) = some items
  | [], _ => rfl
  | item :: items, h => by
      obtain ⟨hitem, hothers⟩ := List.forall_mem_cons.1 h
      simp [ofItems, itemsToJson?, hitem, itemsToJson?_ofItems hothers]

theorem membersToJson?_ofMembers : ∀ {members : List (String × Json)},
    (∀ member ∈ members, (ofJson member.2).toJson? = some member.2) →
      membersToJson? (ofMembers members) = some members
  | [], _ => rfl
  | (key, value) :: members, h => by
      obtain ⟨hvalue, hothers⟩ := List.forall_mem_cons.1 h
      simp [ofMembers, membersToJson?, hvalue, membersToJson?_ofMembers hothers]

/-- The draft of a plain value has that value. -/
theorem IsPlain.toJson?_ofJson {value : Json} (h : value.IsPlain) :
    (ofJson value).toJson? = some value := by
  induction h with
  | null | bool _ | int _ | string _ => rfl
  | array _ ih => rw [ofJson, toJson?, itemsToJson?_ofItems ih, Option.map_some]
  | object hkeys _ ih =>
    rw [ofJson, toJson?, membersToJson?_ofMembers ih, Option.map_some,
      OrderedMap.ofPairs_of_nodup hkeys]

/-- A text is read as the value of the draft that it spells. -/
theorem parse?_of_spells {text : String} {draft : Draft} (h : Spells text.toList draft) :
    parse? text = draft.toJson? := by
  have hread := (read_eq_iff_spells.2 h).1
  rw [parse?, hread]

/-- The lines of a plain value are read as that value. -/
theorem parse?_toPretty {value : Json} (h : value.IsPlain) : parse? value.toPretty = some value := by
  have hspells := h.spells 0
  rw [← String.toList_ofList (l := value.pretty 0)] at hspells
  rw [toPretty, parse?_of_spells hspells, h.toJson?_ofJson]

/-- Plain values with the same lines are the same. -/
theorem IsPlain.eq_of_toPretty_eq {value other : Json} (h : value.IsPlain) (hother : other.IsPlain)
    (hsame : value.toPretty = other.toPretty) : value = other := by
  have hread := parse?_toPretty h
  rw [hsame, parse?_toPretty hother] at hread
  exact (Option.some.inj hread).symm

end Json

end OperationAtlas
