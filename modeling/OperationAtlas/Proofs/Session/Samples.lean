import Mathlib.Logic.Function.Iterate
import OperationAtlas.Proofs.Session.History

/-!
# What a sample shows

The samples of a session stand in the order in which their walks ended, and that order alone decides
how much a sample shows. `sample_shows_its_fields`: in every session that calls lead to, failing
ones included, the sample of a type is the rendering of the fields of its schema type, each with the
nearest host member of its name. A field that leads to an object shows the sample of that object if
it stands *before* the sample of the type, and the stub otherwise.

`Surroundings.Match` is a schema field with what stands behind it, `Surroundings.Shows` the
rendering. What stands in lists is said without the code that writes it: `Json.inArrays` puts a
value into arrays of one item each, `inBrackets` puts a text between opening brackets and as many
closing ones.
-/

namespace OperationAtlas

namespace Surroundings

/-! ## The pieces of a sample -/

/-- Every sample is made of the pieces of its schema type's fields, where the samples before it are
the known ones. -/
def MadeOfPieces (around : Surroundings) (session : Session) : Prop :=
  ∀ before name sample after, session.samples = before ++ (name, sample) :: after →
    ∃ type schemaType pieces,
      around.host.find? name = some type ∧ session.schemaName? name = some schemaType ∧
      List.Forall₂ (fun field piece => around.pieceOf before name schemaType field = .ok piece)
        (around.schema.describe schemaType) pieces ∧
      sample = .ofPieces type schemaType pieces

variable {around : Surroundings}

/-- What holds of every sample and those before it, and of a new one and all others, holds of every
sample and those before it when the new one comes last. -/
theorem forall_split_concat {Holds : List (String × Sample) → String → Sample → Prop}
    {samples : List (String × Sample)} {name : String} {sample : Sample}
    (h : ∀ before owner shown after, samples = before ++ (owner, shown) :: after →
      Holds before owner shown)
    (hlast : Holds samples name sample) :
    ∀ before owner shown after, samples ++ [(name, sample)] = before ++ (owner, shown) :: after →
      Holds before owner shown := by
  intro before owner shown after hsplit
  rcases List.eq_nil_or_concat after with rfl | ⟨after, last, rfl⟩
  · obtain ⟨rfl, heq⟩ := List.append_inj' hsplit rfl
    cases heq
    exact hlast
  · rw [List.concat_eq_append, ← List.cons_append, ← List.append_assoc] at hsplit
    exact h before owner shown after (List.append_inj' hsplit rfl).1

/-- A step keeps the samples made of pieces: a start changes no sample, and the sample of a walk
that ends comes last, so that all others are known to it. -/
theorem MadeOfPieces.step {base : List String} {session session' : Session}
    (hwf : session.WellFormed) (hmade : around.MadeOfPieces session)
    (hstep : around.Step base session session') : around.MadeOfPieces session' := by
  have hgrows := hstep.grows
  cases hstep with
  | start hmeets huntouched hdeclared =>
    intro before name sample after hsplit
    obtain ⟨type, schemaType, pieces, hfind, hschema, hpieces, rfl⟩ :=
      hmade before name sample after hsplit
    exact ⟨type, schemaType, pieces, hfind, hgrows.schemaName? hschema, hpieces, rfl⟩
  | @finish ended endedSchema rest endedType endedPieces hrunning hdeclared hschema hcompletes =>
    rw [MadeOfPieces, hwf.finish_samples_eq (by simp [hrunning])]
    exact forall_split_concat hmade
      ⟨endedType, endedSchema, endedPieces, hdeclared, hschema, hcompletes.pieces, rfl⟩

theorem Reachable.madeOfPieces {session : Session} (h : around.Reachable session) :
    around.MadeOfPieces session :=
  (h.invariant _ (by rintro (_ | _) _ _ _ ⟨⟩) fun _ _ _ hwf hmade hstep => hmade.step hwf hstep).2

end Surroundings

/-! ## Lists -/

/-- A value in so many arrays, each of one item. -/
def Json.inArrays (depth : Nat) (value : Json) : Json :=
  (fun item => .array [item])^[depth] value

/-- A text between so many opening brackets and as many closing ones. -/
def inBrackets (depth : Nat) (text : String) : String :=
  String.ofList (List.replicate depth '[') ++ text ++ String.ofList (List.replicate depth ']')

@[simp] theorem Json.inArrays_eq_nest (depth : Nat) (value : Json) :
    Json.inArrays depth value = Json.nest depth value := by
  induction depth with
  | zero => rfl
  | succ depth ih => rw [Json.nest, ← ih, Json.inArrays, Json.inArrays, Function.iterate_succ_apply']

/-- Each level adds the first opening bracket and the last closing one. -/
@[simp] theorem inBrackets_eq_nestLiteral (depth : Nat) (literal : String) :
    inBrackets depth literal = nestLiteral depth literal := by
  induction depth with
  | zero => simp [nestLiteral, inBrackets]
  | succ depth ih =>
    rw [nestLiteral, ← ih, inBrackets, inBrackets, List.replicate_succ, List.replicate_succ',
      String.ofList_cons, String.ofList_append]
    simp [String.append_assoc]

namespace Surroundings

variable {around : Surroundings}

/-! ## The rendering -/

/-- A schema field with what stands behind it in the host. -/
structure Match where
  field : FieldDecl
  member : Member
  element : TypeRef
  depth : Nat
  kind : TypeKind

namespace Match

/-- The member is the first of the field's name over the host type and its ancestors, and below the
lists of its type stands an element of the kind. -/
structure Finds (around : Surroundings) (hostType : String) (m : Match) : Prop where
  first : ∃ members, around.host.fields hostType = .ok members ∧
    members.find? (·.name == m.field.name) = some m.member
  element : m.member.type.unwrap? = some (m.element, m.depth)
  kind : around.host.kind m.element = .ok m.kind

/-- The documentation of the field. -/
def summary (m : Match) : FieldSummary where
  name := m.field.name
  schemaType := m.field.type.name
  primitive := m.kind.isLeaf
  list := 0 < m.depth
  required := m.member.doc.required
  description := m.member.doc.description.getD ""
  exampleText := m.member.doc.example?.getD ""

/-- The example value of the field: that of a leaf, of the sample that the element has among the
known ones, or of the stub, in as many arrays as the host type has lists. -/
def response (known : List (String × Sample)) (m : Match) : Json :=
  Json.inArrays m.depth <| match m.kind with
    | .leaf leaf => leaf.response m.member.doc.override?
    | _ => match OrderedMap.lookup m.element.simpleName known with
      | some sample => sample.response
      | none => .object [("__typename", .string m.field.type.name)]

/-- The selection of the field. -/
def selection (known : List (String × Sample)) (m : Match) : String :=
  match m.kind with
  | .leaf _ => m.field.name
  | _ => match OrderedMap.lookup m.element.simpleName known with
    | some sample => m.field.name ++ " \x7b\n" ++ sample.selection ++ "\n\x7d"
    | none => m.field.name ++ " \x7b\n__typename\n\x7d"

/-- The literal that passes the field, between as many brackets as the host type has lists. -/
def literal (known : List (String × Sample)) (m : Match) : String :=
  inBrackets m.depth <| match m.kind with
    | .leaf leaf => leaf.literal m.member.doc.override?
    | _ => match OrderedMap.lookup m.element.simpleName known with
      | some sample => sample.argument
      | none => "\x7b\x7d"

/-- What the field contributes to the sample of its type. -/
def piece (known : List (String × Sample)) (m : Match) : Piece :=
  ⟨m.summary, m.response known, m.selection known, m.literal known⟩

/-- Behind two fields of one name of a host type stands the same. -/
theorem Finds.agree {around : Surroundings} {hostType : String} {m m' : Match}
    (h : m.Finds around hostType) (h' : m'.Finds around hostType)
    (hname : m.field.name = m'.field.name) :
    m.member = m'.member ∧ m.element = m'.element ∧ m.depth = m'.depth ∧ m.kind = m'.kind := by
  obtain ⟨members, hfields, hfirst⟩ := h.first
  obtain ⟨members', hfields', hfirst'⟩ := h'.first
  obtain rfl : members = members' := Except.ok.inj (hfields.symm.trans hfields')
  rw [hname] at hfirst
  have hmember : m.member = m'.member := Option.some.inj (hfirst.symm.trans hfirst')
  have hunwrap := h.element
  rw [hmember, h'.element] at hunwrap
  obtain ⟨helement, hdepth⟩ := Prod.mk.inj (Option.some.inj hunwrap)
  have hkind := h.kind
  rw [← helement, h'.kind] at hkind
  exact ⟨hmember, helement.symm, hdepth.symm, (Except.ok.inj hkind).symm⟩

end Match

/-- A sample renders matched fields in order. Without fields it shows the name of the schema type.
In the example value a field that is repeated has one key, in the place of its first occurrence and
with the value of its last; selection and argument repeat it. -/
structure Shows (known : List (String × Sample)) (type : HostType) (schemaType : String)
    (found : List Match) (sample : Sample) : Prop where
  fields : sample.fields = ⟨type.name, type.description, found.map Match.summary⟩
  bare : found = [] →
    sample.response = .object [("__typename", .string schemaType)] ∧
      sample.selection = "__typename" ∧ sample.argument = "\x7b\x7d"
  response : found ≠ [] → ∃ members, sample.response = .object members ∧
    members.map (·.1) = (found.map (·.field.name)).eraseDups ∧
    ∀ key, OrderedMap.lookup key members =
      OrderedMap.lookup key (found.map fun m => (m.field.name, m.response known)).reverse
  selection : found ≠ [] → sample.selection = "\n".intercalate (found.map (Match.selection known))
  argument : found ≠ [] → sample.argument =
    "\x7b " ++ ", ".intercalate (found.map fun m => m.field.name ++ ": " ++ m.literal known) ++
      " \x7d"

/-- The piece of a field is the rendering of what stands behind it. -/
theorem exists_match_of_pieceOf {known : List (String × Sample)} {hostType schemaType : String}
    {field : FieldDecl} {piece : Piece}
    (h : around.pieceOf known hostType schemaType field = .ok piece) :
    ∃ m : Match, m.field = field ∧ m.Finds around hostType ∧ piece = m.piece known := by
  obtain ⟨⟨member, element, depth, kind⟩, hmember, hpiece⟩ := bind_eq_ok_iff.1 h
  obtain ⟨hfield, hunwrap, hkind⟩ := memberOf_eq_ok_iff.1 hmember
  have hname := name_of_memberOf hmember
  refine ⟨⟨field, member, element, depth, kind⟩, rfl,
    ⟨HostTypes.field?_eq_ok_iff.1 hfield, hunwrap, hkind⟩, ?_⟩
  rcases memberOf_kind hmember with ⟨leaf, rfl⟩ | ⟨rfl, -⟩
  · cases hpiece
    simp [Piece.ofLeaf, Piece.summarize, Match.piece, Match.summary, Match.response,
      Match.selection, Match.literal, TypeKind.isLeaf, hname]
  · cases hsample : OrderedMap.lookup element.simpleName known with
    | some sample =>
      simp only [hsample, Except.ok.injEq] at hpiece
      simp [← hpiece, Piece.ofSample, Piece.summarize, Match.piece, Match.summary,
        Match.response, Match.selection, Match.literal, TypeKind.isLeaf, hname, hsample]
    | none =>
      simp only [hsample, Except.ok.injEq] at hpiece
      simp [← hpiece, Piece.stub, Piece.summarize, Match.piece, Match.summary, Match.response,
        Match.selection, Match.literal, TypeKind.isLeaf, hname, hsample, typenameField,
        String.append_assoc]

/-- The pieces of fields are the renderings of what stands behind them. -/
theorem exists_matches_of_pieces {known : List (String × Sample)} {hostType schemaType : String}
    {fields : List FieldDecl} {pieces : List Piece}
    (h : List.Forall₂ (fun field piece =>
      around.pieceOf known hostType schemaType field = .ok piece) fields pieces) :
    ∃ found : List Match, found.map (·.field) = fields ∧
      (∀ m ∈ found, m.Finds around hostType) ∧ pieces = found.map (Match.piece known) := by
  induction h with
  | nil => exact ⟨[], rfl, nofun, rfl⟩
  | cons hpiece _ ih =>
    obtain ⟨found, rfl, hfound, rfl⟩ := ih
    obtain ⟨m, rfl, hm, rfl⟩ := exists_match_of_pieceOf hpiece
    exact ⟨m :: found, rfl, List.forall_mem_cons.2 ⟨hm, hfound⟩, rfl⟩

/-- A sample that is made of rendered pieces shows their fields. -/
theorem shows_ofPieces (known : List (String × Sample)) (type : HostType) (schemaType : String)
    (found : List Match) :
    Shows known type schemaType found
      (.ofPieces type schemaType (found.map (Match.piece known))) where
  fields := by simp [Sample.ofPieces, Function.comp_def, Match.piece]
  bare := by rintro rfl; exact ⟨rfl, rfl, rfl⟩
  response hfound := by
    refine ⟨_, by simp only [Sample.ofPieces, List.isEmpty_map, List.isEmpty_eq_false_iff.2 hfound,
      List.map_map, Bool.false_eq_true, if_false]; rfl, ?_, fun key => ?_⟩
    · rw [OrderedMap.keys_ofPairs, List.map_map]; rfl
    · rw [OrderedMap.lookup_ofPairs]; rfl
  selection hfound := by
    simp [Sample.ofPieces, List.isEmpty_eq_false_iff.2 hfound, Function.comp_def, Match.piece]
  argument hfound := by
    simp [Sample.ofPieces, List.isEmpty_eq_false_iff.2 hfound, Function.comp_def, Match.piece,
      Match.summary]

/-- What the rendering passes on from the samples before a sample to that sample holds of every
sample of a session that calls lead to, under the name of its type. -/
theorem Reachable.forall_sample_at {session : Session} (h : around.Reachable session)
    {P : String → Sample → Prop}
    (hrender : ∀ (known : List (String × Sample)) (name : String) (type : HostType)
      (schemaType : String) (found : List Match) (after : List (String × Sample)),
      session.samples = known ++
        (name, .ofPieces type schemaType (found.map (Match.piece known))) :: after →
      session.schemaName? name = some schemaType →
      found.map Match.field = around.schema.describe schemaType →
      (∀ m ∈ found, m.Finds around name) → (∀ entry ∈ known, P entry.1 entry.2) →
      P name (.ofPieces type schemaType (found.map (Match.piece known)))) :
    ∀ entry ∈ session.samples, P entry.1 entry.2 := by
  suffices hbefore : ∀ before after, session.samples = before ++ after →
    ∀ entry ∈ before, P entry.1 entry.2 from
    hbefore session.samples [] (by simp)
  intro before
  induction before using List.reverseRecOn with
  | nil => exact fun _ _ => nofun
  | append_singleton before entry ih =>
    obtain ⟨name, sample⟩ := entry
    intro after hsplit
    rw [List.append_assoc, List.singleton_append] at hsplit
    have hknown := ih _ hsplit
    obtain ⟨type, schemaType, pieces, -, hschema, hpieces, rfl⟩ := h.madeOfPieces _ _ _ _ hsplit
    obtain ⟨found, hfields, hfound, rfl⟩ := exists_matches_of_pieces hpieces
    intro other hother
    rcases List.mem_append.1 hother with hother | hother
    · exact hknown other hother
    · rw [List.mem_singleton.1 hother]
      exact hrender before name type schemaType found after hsplit hschema hfields hfound hknown

/-- What the rendering passes on from some samples to one that shows them holds of every sample of a
session that calls lead to. -/
theorem Reachable.forall_sample {session : Session} (h : around.Reachable session)
    {P : Sample → Prop}
    (hrender : ∀ (known : List (String × Sample)) (type : HostType) (schemaType : String)
      (found : List Match) (name : String), (∀ entry ∈ known, P entry.2) →
      found.map Match.field = around.schema.describe schemaType →
      (∀ m ∈ found, m.Finds around name) →
      P (.ofPieces type schemaType (found.map (Match.piece known)))) :
    ∀ entry ∈ session.samples, P entry.2 :=
  h.forall_sample_at fun known name type schemaType found _ _ _ hfields hfound hknown =>
    hrender known type schemaType found name hknown hfields hfound

/-- In every session that calls lead to, whether they fail or not, the sample of a type is found
under the type's name and shows the fields of the schema type that is recorded for it. What it shows
of other types are the samples that stand before it. -/
theorem sample_shows_its_fields {session : Session} (h : around.Reachable session)
    {before after : List (String × Sample)} {name : String} {sample : Sample}
    (hsplit : session.samples = before ++ (name, sample) :: after) :
    session.sample? name = some sample ∧
      ∃ schemaType type found,
        session.schemaName? name = some schemaType ∧ around.host.find? name = some type ∧
        type.name = name ∧ found.map Match.field = around.schema.describe schemaType ∧
        (∀ m ∈ found, m.Finds around name) ∧ Shows before type schemaType found sample := by
  have hmem : (name, sample) ∈ session.samples := by simp [hsplit]
  refine ⟨OrderedMap.lookup_of_mem h.wellFormed.samples_nodup hmem, ?_⟩
  obtain ⟨type, schemaType, pieces, hfind, hschema, hpieces, rfl⟩ :=
    h.madeOfPieces before name sample after hsplit
  obtain ⟨found, hfields, hfound, rfl⟩ := exists_matches_of_pieces hpieces
  exact ⟨schemaType, type, found, hschema, hfind, HostTypes.name_of_find? hfind, hfields, hfound,
    shows_ofPieces before type schemaType found⟩

/-- A user with friends, so that its type stands in a circle with itself, and with an address. The
schema declares the field `id` twice, and the host inherits it. -/
def friends : Surroundings where
  schema :=
    { types := [
        ("User", [⟨"id", ⟨"ID", true, false⟩, []⟩, ⟨"friends", ⟨"User", false, true⟩, []⟩,
          ⟨"address", ⟨"Address", false, false⟩, []⟩, ⟨"id", ⟨"ID", false, false⟩, []⟩]),
        ("Address", [⟨"city", ⟨"String", false, false⟩, []⟩])] }
  host :=
    { types := [
        ⟨"Entity", none, none, .object [⟨"id", .plain "Id", {}⟩]⟩,
        ⟨"UserView", none, some "Entity", .object
          [⟨"friends", .list "Vec" [.plain "UserView"], {}⟩,
            ⟨"address", .plain "AddressView", {}⟩]⟩,
        ⟨"AddressView", none, none, .object
          [⟨"city", .plain "String", { example? := some "Oslo" }⟩]⟩]
      distinct := by decide }

/-- The session after a call that fails and a walk of the user. -/
def friendsSession : Session :=
  let operation : FieldDecl := ⟨"user", ⟨"User", false, false⟩, []⟩
  let failed := ((Call.synthesize operation "Ghost" .result).step friends).runOn {}
  (((Call.synthesize operation "UserView" .result).step friends).runOn failed.2).2

/-- The user shows the address, which stands before it, and itself by the stub, in a list. The
identifier stands twice in the argument and once in the example value. -/
theorem friends_show_their_fields :
    friends.Reachable friendsSession ∧ ∃ before sample,
      friendsSession.samples = before ++ ("UserView", sample) :: [] ∧
      before.map (·.1) = ["AddressView"] ∧
      sample.argument =
        "\x7b id: \"\", friends: [\x7b\x7d], address: \x7b city: \"Oslo\" \x7d, id: \"\" \x7d" ∧
      sample.response = .object [
        ("id", .string ""),
        ("friends", .array [.object [("__typename", .string "User")]]),
        ("address", .object [("city", .string "Oslo")])] ∧
      friendsSession.sample? "UserView" = some sample ∧
      ∃ schemaType type found,
        friendsSession.schemaName? "UserView" = some schemaType ∧
        friends.host.find? "UserView" = some type ∧ type.name = "UserView" ∧
        found.map Match.field = friends.schema.describe schemaType ∧
        (∀ m ∈ found, m.Finds friends "UserView") ∧ Shows before type schemaType found sample := by
  have hreach : friends.Reachable friendsSession := .call (.call .fresh _) _
  have hsplit : friendsSession.samples = [friendsSession.samples.get ⟨0, by decide⟩] ++
      ("UserView", (friendsSession.samples.get ⟨1, by decide⟩).2) :: [] := by rfl
  exact ⟨hreach, _, _, hsplit, by decide, by decide, by rfl, sample_shows_its_fields hreach hsplit⟩

end Surroundings

end OperationAtlas
