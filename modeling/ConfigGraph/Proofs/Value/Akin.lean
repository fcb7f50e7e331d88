import ConfigGraph.Proofs.Evaluation.Scope
import ConfigGraph.Proofs.Value.Parametric
import ConfigGraph.Proofs.Value.Rooted

/-!
# Values that are akin

Functions keep the whole scope in which they were made, but use only the names that are free in
their bodies.  Two values are akin if they differ at most in what their functions cannot use, and
in the marks of floats that are no numbers, which have to go together.  Operators keep values akin
(`parametric_akin`).  Values without functions that are akin are equal, or would be if their marks
were.
-/

namespace ConfigGraph.Value

variable {documents : List Document} {marks : Origin → Origin → Prop}

/-- Values that differ in marks that go together, and in what functions in them cannot use.  The
code of all functions stands in some documents. -/
inductive Akin (documents : List Document) (marks : Origin → Origin → Prop) :
    Value → Value → Prop where
  | same {value : Value} : value.Rooted documents → Akin documents marks value value
  | nan {origin other : Origin} :
      marks origin other → Akin documents marks (.nan origin) (.nan other)
  | array {items others : List Value} :
      items.length = others.length →
      (∀ item other, (item, other) ∈ items.zip others → Akin documents marks item other) →
      Akin documents marks (.array items) (.array others)
  | record {fields others : Fields} :
      fields.map Prod.fst = others.map Prod.fst →
      (∀ field other, (field, other) ∈ fields.zip others →
        Akin documents marks field.2 other.2) →
      Akin documents marks (.record fields) (.record others)
  | function {origin otherOrigin : Origin} {parameters : List Text} {body : Expr}
      {scope otherScope : Scope} {source : Source} :
      StandsIn documents source body →
      (∀ name, name ∉ parameters → body.Free name →
        (Scope.value? scope name).isSome = (Scope.value? otherScope name).isSome) →
      (∀ name value other, name ∉ parameters → body.Free name →
        Scope.value? scope name = some value → Scope.value? otherScope name = some other →
        Akin documents marks value other) →
      Akin documents marks (.function origin parameters body scope source)
        (.function otherOrigin parameters body otherScope source)

/-- What the body of a function finds in two scopes is akin. -/
abbrev ScopesAkin (documents : List Document) (marks : Origin → Origin → Prop)
    (names : Text → Prop) : Scope → Scope → Prop :=
  Scope.Agree (Akin documents marks) names

/-! ## Making values that are akin -/

theorem akin_of_plain {value : Value} (noCode : value.code? = none)
    (noMembers : value.members = []) : Akin documents marks value value :=
  .same (rooted_of_plain noCode noMembers)

theorem akin_array {items others : List Value}
    (areAkin : List.Forall₂ (Akin documents marks) items others) :
    Akin documents marks (.array items) (.array others) := by
  obtain ⟨sameLength, members⟩ := List.forall₂_iff_zip.mp areAkin
  exact .array sameLength fun item other isPair => members isPair

theorem akin_record {fields others : Fields}
    (areAkin : Fields.Related (Akin documents marks) fields others) :
    Akin documents marks (.record fields) (.record others) := by
  refine .record ?_ fun field other isPair => ((List.forall₂_iff_zip.mp areAkin).2 isPair).2
  rw [← List.forall₂_eq_eq_eq, List.forall₂_map_left_iff, List.forall₂_map_right_iff]
  exact areAkin.imp fun field other both => both.1

theorem akin_function {origin otherOrigin : Origin} {parameters : List Text} {body : Expr}
    {scope otherScope : Scope} {source : Source} (standsIn : StandsIn documents source body)
    (agree : ScopesAkin documents marks (fun name => name ∉ parameters ∧ body.Free name) scope
      otherScope) :
    Akin documents marks (.function origin parameters body scope source)
      (.function otherOrigin parameters body otherScope source) := by
  refine .function standsIn (fun name notBound isFree => ?_)
    fun name value other notBound isFree found otherFound => ?_
  · have both := agree name ⟨notBound, isFree⟩
    generalize Scope.value? scope name = first, Scope.value? otherScope name = second at both ⊢
    cases both <;> rfl
  · have both := agree name ⟨notBound, isFree⟩
    rw [found, otherFound] at both
    cases both with
    | some areAkin => exact areAkin

theorem akin_ofNumber {origin other : Origin} (number : Number) (marked : marks origin other) :
    Akin documents marks (.ofNumber origin number) (.ofNumber other number) := by
  cases number with
  | int value => exact akin_of_plain rfl rfl
  | float value =>
      by_cases isNaN : Binary64.isNaN value
      · rw [ofNumber, ofNumber, if_pos isNaN, if_pos isNaN]
        exact .nan marked
      · rw [ofNumber, ofNumber, if_neg isNaN, if_neg isNaN]
        exact akin_of_plain rfl rfl

/-! ## What values that are akin have in common -/

variable {value other : Value}

theorem layersAkin_of_rooted (rooted : value.Rooted documents) :
    Option.Rel (Layer.Related (Akin documents marks)) value.layer? value.layer? := by
  cases isLayer : value.layer? with
  | none => exact .none
  | some layer =>
      exact .some (Layer.related_self fun member isMember =>
        .same (rooted.of_layer? isLayer member isMember))

/-- Operators keep values akin. -/
theorem parametric_akin : Parametric marks (Akin documents marks) where
  typeName areAkin := by cases areAkin <;> rfl
  number? areAkin := by cases areAkin <;> rfl
  text areAkin text := by
    cases areAkin with
    | same => exact Iff.rfl
    | nan | array | record | function => exact iff_of_false nofun nofun
  bool areAkin truth := by
    cases areAkin with
    | same => exact Iff.rfl
    | nan | array | record | function => exact iff_of_false nofun nofun
  layer? areAkin := by
    cases areAkin with
    | same rooted => exact layersAkin_of_rooted rooted
    | nan | function => exact .none
    | array sameLength members =>
        exact .some (.array (List.forall₂_iff_zip.mpr ⟨sameLength, fun isPair =>
          members _ _ isPair⟩))
    | record sameKeys members =>
        rw [← List.forall₂_eq_eq_eq, List.forall₂_map_left_iff, List.forall₂_map_right_iff,
          List.forall₂_iff_zip] at sameKeys
        exact .some (.record (List.forall₂_iff_zip.mpr ⟨sameKeys.1, fun isPair =>
          ⟨sameKeys.2 isPair, members _ _ isPair⟩⟩))
  ofNumber number marked := akin_ofNumber number marked
  ofText text := akin_of_plain rfl rfl
  ofBool truth := akin_of_plain rfl rfl
  array := akin_array
  record := akin_record

/-- A value is akin to a function only if that is one with the same code. -/
theorem Akin.cases_function (areAkin : Akin documents marks value other) :
    (∃ origin otherOrigin parameters body scope otherScope source,
      value = .function origin parameters body scope source ∧
      other = .function otherOrigin parameters body otherScope source ∧
      StandsIn documents source body ∧
      ScopesAkin documents marks (fun name => name ∉ parameters ∧ body.Free name) scope
        otherScope) ∨
    value.code? = none ∧ other.code? = none := by
  cases areAkin with
  | same rooted =>
      cases value with
      | function origin parameters body scope source =>
          obtain ⟨standsIn, scopeRooted⟩ := rooted_function.mp rooted
          exact .inl ⟨origin, origin, parameters, body, scope, scope, source, rfl, rfl, standsIn,
            Scope.agree_self (fun binding isBinding => .same (scopeRooted binding isBinding)) _⟩
      | _ => exact .inr ⟨rfl, rfl⟩
  | nan | array | record => exact .inr ⟨rfl, rfl⟩
  | @function origin otherOrigin parameters body scope otherScope source standsIn sameNames
      values =>
      refine .inl ⟨origin, otherOrigin, parameters, body, scope, otherScope, source, rfl, rfl,
        standsIn, ?_⟩
      rintro name ⟨notBound, isFree⟩
      have both := sameNames name notBound isFree
      have areAkin := values name
      generalize Scope.value? scope name = first, Scope.value? otherScope name = second
        at both areAkin ⊢
      rcases first with _ | first <;> rcases second with _ | second
      · exact .none
      · cases both
      · cases both
      · exact .some (areAkin first second notBound isFree rfl rfl)

/-! ## Values without functions -/

/-- There is no function in a value, also not in what other values keep. -/
abbrev FunctionFree (value : Value) : Prop := value.Rooted []

/-- Values without functions that are the same but for marks of floats that are no numbers. -/
abbrev Matches : Value → Value → Prop := Akin [] fun _ _ => True

theorem not_standsIn_nil {source : Source} {expr : Expr} : ¬StandsIn [] source expr := by
  rintro ⟨_, isDocument, _⟩
  cases isDocument

theorem Akin.mono {more : Origin → Origin → Prop} (areAkin : Akin documents marks value other)
    (subset : ∀ origin other, marks origin other → more origin other) :
    Akin documents more value other := by
  induction areAkin with
  | same rooted => exact .same rooted
  | nan marked => exact .nan (subset _ _ marked)
  | array sameLength _ induction => exact .array sameLength induction
  | record sameKeys _ induction => exact .record sameKeys induction
  | function standsIn sameNames _ induction => exact .function standsIn sameNames induction

/-- Where there are no functions, being akin is about marks only. -/
theorem Akin.without_functions (areAkin : Akin documents marks value other)
    (free : value.FunctionFree ∨ other.FunctionFree) : Akin [] marks value other := by
  induction areAkin with
  | same rooted => exact .same (free.elim id id)
  | nan marked => exact .nan marked
  | array sameLength _ induction =>
      refine .array sameLength fun item other isPair => induction item other isPair ?_
      obtain ⟨isItem, isOther⟩ := List.of_mem_zip isPair
      exact free.imp (fun rooted => rooted_array.mp rooted item isItem)
        fun rooted => rooted_array.mp rooted other isOther
  | record sameKeys _ induction =>
      refine .record sameKeys fun field other isPair => induction field other isPair ?_
      obtain ⟨isField, isOther⟩ := List.of_mem_zip isPair
      exact free.imp (fun rooted => rooted_record.mp rooted field isField)
        fun rooted => rooted_record.mp rooted other isOther
  | function =>
      rcases free with rooted | rooted
      · exact absurd (rooted_function.mp rooted).1 not_standsIn_nil
      · exact absurd (rooted_function.mp rooted).1 not_standsIn_nil

theorem eq_of_akin (areAkin : Akin [] Eq value other) : value = other := by
  induction areAkin with
  | same => rfl
  | nan marked => rw [marked]
  | @array items others sameLength _ induction =>
      have same : List.Forall₂ Eq items others :=
        List.forall₂_iff_zip.mpr ⟨sameLength, fun isPair => induction _ _ isPair⟩
      rw [List.forall₂_eq_eq_eq] at same
      rw [same]
  | @record fields others sameKeys _ induction =>
      rw [← List.forall₂_eq_eq_eq, List.forall₂_map_left_iff, List.forall₂_map_right_iff,
        List.forall₂_iff_zip] at sameKeys
      have same : List.Forall₂ Eq fields others := List.forall₂_iff_zip.mpr ⟨sameKeys.1,
        fun isPair => Prod.ext (sameKeys.2 isPair) (induction _ _ isPair)⟩
      rw [List.forall₂_eq_eq_eq] at same
      rw [same]
  | function standsIn => exact absurd standsIn not_standsIn_nil

end ConfigGraph.Value
