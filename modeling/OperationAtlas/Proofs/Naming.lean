import OperationAtlas.Naming

/-!
# The getter convention

An accessor implements the operation of its own name if there is one, and else the operation that
the getter convention links to its name (`reconcile?_eq_some_iff`). A name with a getter is linked to
the getter, and the getter to the name (`getterCounterpart?_of_hasGetter`,
`getterCounterpart?_getterOf`). So the two accessors of such a pair implement the same operation
unless both are operations, and then each implements its own (`getter_convention`).
-/

namespace OperationAtlas

open Text

/-! ## Names and their getters -/

/-- A name that has a getter: it starts with a small letter or an underscore, and not with `get`. -/
def HasGetter (name : String) : Prop :=
  (∃ first rest, name.toList = first :: rest ∧ (('a' ≤ first ∧ first ≤ 'z') ∨ first = '_')) ∧
    ¬ "get".toList <+: name.toList

/-- The getter of a name: `get` and the name, with a capital as its first letter. -/
def getterOf (name : String) : String :=
  match name.toList with
  | [] => "get"
  | first :: rest => String.ofList ("get".toList ++ first.toUpper :: rest)

theorem toList_getterOf {name : String} {first : Char} {rest : List Char}
    (h : name.toList = first :: rest) :
    (getterOf name).toList = "get".toList ++ first.toUpper :: rest := by
  rw [getterOf, h]
  exact String.toList_ofList

theorem mem_range_of_letter {c : Char} (h : 'a' ≤ c ∧ c ≤ 'z') : c.toNat ∈ List.range' 97 26 := by
  have hfirst : 97 ≤ c.toNat := h.1
  have hlast : c.toNat ≤ 122 := h.2
  rw [List.mem_range'_1]
  omega

/-- The case of a first character is converted there and back. -/
theorem convert_first {first : Char} (h : ('a' ≤ first ∧ first ≤ 'z') ∨ first = '_') :
    upper first = [first.toUpper] ∧ lower first.toUpper = [first] := by
  have hletters : ∀ n ∈ List.range' 97 26, upper (Char.ofNat n) = [(Char.ofNat n).toUpper] ∧
      lower (Char.ofNat n).toUpper = [Char.ofNat n] := by
    decide +kernel
  rcases h with hletter | rfl
  · have hfirst := hletters _ (mem_range_of_letter hletter)
    rwa [Char.ofNat_toNat] at hfirst
  · decide +kernel

/-! ## The link of a name and its getter -/

theorem stripGet?_eq_some_iff {cs rest : List Char} :
    stripGet? cs = some rest ↔ cs = "get".toList ++ rest := by
  constructor
  · intro h
    unfold stripGet? at h
    split at h
    · cases h
      rfl
    · cases h
  · rintro rfl
    rfl

/-- A name is linked to its getter. -/
theorem getterCounterpart?_of_hasGetter {name : String} (h : HasGetter name) :
    getterCounterpart? name.toList = some (getterOf name).toList := by
  obtain ⟨⟨first, rest, hname, hfirst⟩, hget⟩ := h
  have hstrip : stripGet? name.toList = none :=
    Option.eq_none_iff_forall_ne_some.2 fun rest hrest =>
      hget ⟨rest, (stripGet?_eq_some_iff.1 hrest).symm⟩
  simp only [getterCounterpart?, hstrip, toList_getterOf hname]
  simp only [hname, (convert_first hfirst).1]
  rfl

/-- A getter is linked to its name. -/
theorem getterCounterpart?_getterOf {name : String} (h : HasGetter name) :
    getterCounterpart? (getterOf name).toList = some name.toList := by
  obtain ⟨⟨first, rest, hname, hfirst⟩, -⟩ := h
  simp only [getterCounterpart?, toList_getterOf hname, stripGet?_eq_some_iff.2 rfl, hname,
    (convert_first hfirst).2]
  rfl

/-! ## The operation of an accessor -/

variable {isDeclared : String → Bool} {accessor : String}

/-- An accessor implements the operation of its own name, and failing that the one that is linked to
its name. -/
theorem reconcile?_eq_some_iff {name : String} :
    reconcile? isDeclared accessor = some name ↔ isDeclared name = true ∧
      (name = accessor ∨
        isDeclared accessor = false ∧ getterCounterpart? accessor.toList = some name.toList) := by
  unfold reconcile?
  split
  · next hdeclared =>
    simp only [Option.some.injEq, hdeclared, Bool.true_eq_false, false_and, or_false]
    exact ⟨fun h => ⟨h ▸ hdeclared, h.symm⟩, fun h => h.2.symm⟩
  · next hdeclared =>
    have hother : isDeclared name = true → name ≠ accessor := by
      rintro hname rfl
      exact hdeclared hname
    split
    · next hlink => simp +contextual [hlink, hother]
    · next linked hlink =>
      have hname : linked = name.toList ↔ String.ofList linked = name := by
        rw [← String.toList_inj, String.toList_ofList]
      simp only [hlink, Option.some.injEq, hname, Bool.eq_false_iff.2 hdeclared, true_and]
      constructor
      · intro h
        split at h
        · next hlinked =>
          cases h
          exact ⟨hlinked, .inr rfl⟩
        · cases h
      · rintro ⟨hnamed, rfl | rfl⟩
        · exact absurd rfl (hother hnamed)
        · rw [if_pos hnamed]

/-- The operation that an accessor stands for is declared. -/
theorem isDeclared_of_reconcile? {name : String} (h : reconcile? isDeclared accessor = some name) :
    isDeclared name = true :=
  (reconcile?_eq_some_iff.1 h).1

theorem reconcile?_of_isDeclared (h : isDeclared accessor = true) :
    reconcile? isDeclared accessor = some accessor :=
  reconcile?_eq_some_iff.2 ⟨h, .inl rfl⟩

theorem reconcile?_of_counterpart {other : String} (h : isDeclared accessor = false)
    (hlink : getterCounterpart? accessor.toList = some other.toList)
    (hother : isDeclared other = true) : reconcile? isDeclared accessor = some other :=
  reconcile?_eq_some_iff.2 ⟨hother, .inr ⟨h, hlink⟩⟩

theorem reconcile?_eq_none {other : String} (h : isDeclared accessor = false)
    (hlink : getterCounterpart? accessor.toList = some other.toList)
    (hother : isDeclared other = false) : reconcile? isDeclared accessor = none := by
  refine Option.eq_none_iff_forall_ne_some.2 fun name hname => ?_
  obtain ⟨hdeclared, rfl | ⟨-, hlinked⟩⟩ := reconcile?_eq_some_iff.1 hname
  · rw [h] at hdeclared
    cases hdeclared
  · rw [hlink, Option.some.injEq, String.toList_inj] at hlinked
    rw [← hlinked, hother] at hdeclared
    cases hdeclared

/-- A name and its getter both implement what is declared of the two, each its own operation if both
are. Whatever accessor there is, it implements a declared operation, and the one of its own name if
that is declared. -/
theorem getter_convention (isDeclared : String → Bool) :
    (∀ name, HasGetter name →
      (isDeclared name = true → isDeclared (getterOf name) = true →
        reconcile? isDeclared name = some name ∧
          reconcile? isDeclared (getterOf name) = some (getterOf name)) ∧
      (isDeclared name = true → isDeclared (getterOf name) = false →
        reconcile? isDeclared name = some name ∧
          reconcile? isDeclared (getterOf name) = some name) ∧
      (isDeclared name = false → isDeclared (getterOf name) = true →
        reconcile? isDeclared name = some (getterOf name) ∧
          reconcile? isDeclared (getterOf name) = some (getterOf name)) ∧
      (isDeclared name = false → isDeclared (getterOf name) = false →
        reconcile? isDeclared name = none ∧ reconcile? isDeclared (getterOf name) = none)) ∧
    ∀ accessor,
      (∀ name, reconcile? isDeclared accessor = some name → isDeclared name = true) ∧
      (isDeclared accessor = true → reconcile? isDeclared accessor = some accessor) := by
  refine ⟨fun name h => ?_, fun accessor => ⟨fun _ => isDeclared_of_reconcile?,
    reconcile?_of_isDeclared⟩⟩
  have hlink := getterCounterpart?_of_hasGetter h
  have hback := getterCounterpart?_getterOf h
  refine ⟨fun hname hgetter => ?both, fun hname hgetter => ?name, fun hname hgetter => ?getter,
    fun hname hgetter => ?neither⟩
  case both => exact ⟨reconcile?_of_isDeclared hname, reconcile?_of_isDeclared hgetter⟩
  case name => exact ⟨reconcile?_of_isDeclared hname, reconcile?_of_counterpart hgetter hback hname⟩
  case getter =>
    exact ⟨reconcile?_of_counterpart hname hlink hgetter, reconcile?_of_isDeclared hgetter⟩
  case neither =>
    exact ⟨reconcile?_eq_none hname hlink hgetter, reconcile?_eq_none hgetter hback hname⟩

/-- Each of two accessors finds the declared operation of a pair, an underscore has no capital, and
a pair that is not declared is left out. -/
theorem convention_of_three_pairs :
    let isDeclared : String → Bool := fun name => name ∈ ["_id", "get_id", "orders", "getUser"]
    (reconcile? isDeclared "_id" = some "_id" ∧ reconcile? isDeclared "get_id" = some "get_id") ∧
    (reconcile? isDeclared "orders" = some "orders" ∧
      reconcile? isDeclared "getOrders" = some "orders") ∧
    (reconcile? isDeclared "user" = some "getUser" ∧
      reconcile? isDeclared "getUser" = some "getUser") ∧
    reconcile? isDeclared "total" = none ∧ reconcile? isDeclared "getTotal" = none := by
  intro isDeclared
  obtain ⟨hpairs, -⟩ := getter_convention isDeclared
  obtain ⟨hid, -⟩ := hpairs "_id" ⟨⟨'_', _, rfl, .inr rfl⟩, by decide⟩
  obtain ⟨-, horders, -⟩ := hpairs "orders" ⟨⟨'o', _, rfl, .inl (by decide)⟩, by decide⟩
  obtain ⟨-, -, huser, -⟩ := hpairs "user" ⟨⟨'u', _, rfl, .inl (by decide)⟩, by decide⟩
  obtain ⟨-, -, -, htotal⟩ := hpairs "total" ⟨⟨'t', _, rfl, .inl (by decide)⟩, by decide⟩
  exact ⟨hid (by decide) (by decide), horders (by decide) (by decide),
    huser (by decide) (by decide), htotal (by decide) (by decide)⟩

end OperationAtlas
