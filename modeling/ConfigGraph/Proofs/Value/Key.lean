import ConfigGraph.Value.Equality
import ConfigGraph.Proofs.Number.Quantity

/-!
# Keys of records

Two values are the same key if they have the same form.  So keys that are the same as a third one are
the same.
-/

namespace ConfigGraph

/-- What a point in time is compared by: its clock, or the instant if it has an offset. -/
inductive Moment where
  | clock (time : DateTime)
  | instant (microseconds : Int)

def DateTime.moment (time : DateTime) : Moment :=
  match time.offset with
  | none => .clock time
  | some offset => .instant (time.localMicroseconds - offset)

theorem DateTime.same_iff (left right : DateTime) :
    left.same right = true ↔ left.moment = right.moment := by
  unfold same moment
  cases left.offset with
  | none => cases right.offset <;> simp
  | some offset => cases right.offset <;> simp

/-- What a key is compared by. -/
inductive KeyForm where
  | null
  | quantity (quantity : Quantity)
  | text (value : Text)
  | bytes (value : List UInt8)
  | date (value : Date)
  | moment (moment : Moment)
  | nan (origin : Origin)
  | function (origin : Origin)
  | knot (owner : Text) (index : Nat)
  | tuple (forms : List KeyForm)

namespace Value

/-- The form of a key that is no tuple. -/
def atom? : Value → Option KeyForm
  | null => some .null
  | text value => some (.text value)
  | bytes value => some (.bytes value)
  | date value => some (.date value)
  | dateTime time => some (.moment time.moment)
  | nan origin => some (.nan origin)
  | function origin .. => some (.function origin)
  | knot owner _ index => some (.knot owner index)
  | value => (value.quantity?.bind Number.quantity?).map .quantity

mutual

/-- The form of a key. -/
def form? : Value → Option KeyForm
  | tuple items => (forms? items).map .tuple
  | value => value.atom?

def forms? : List Value → Option (List KeyForm)
  | [] => some []
  | value :: values => (form? value).bind fun form => (forms? values).map (form :: ·)

end

theorem parts_nan : Binary64.parts Binary64.nan = .nan := by
  decide +kernel

theorem atom?_of_quantity {value : Value} {number : Number} {quantity : Quantity}
    (isNumber : value.quantity? = some number) (isQuantity : number.quantity? = some quantity) :
    value.atom? = some (.quantity quantity) := by
  cases value with
  | bool value =>
      cases isNumber
      exact congrArg (Option.map KeyForm.quantity) isQuantity
  | int value =>
      cases isNumber
      exact congrArg (Option.map KeyForm.quantity) isQuantity
  | float value =>
      cases isNumber
      exact congrArg (Option.map KeyForm.quantity) isQuantity
  | nan origin =>
      cases isNumber
      rw [Number.quantity?, parts_nan] at isQuantity
      cases isQuantity
  | _ => cases isNumber

theorem atom_of_identical {left right : Value} (same : identical left right = true) :
    ∃ form, left.atom? = some form ∧ right.atom? = some form := by
  unfold identical at same
  split at same
  · cases eq_of_beq same
    exact ⟨_, rfl, rfl⟩
  · cases eq_of_beq same
    exact ⟨_, rfl, rfl⟩
  · rw [Bool.and_eq_true, beq_iff_eq, beq_iff_eq] at same
    obtain ⟨rfl, rfl⟩ := same
    exact ⟨_, rfl, rfl⟩
  · cases same

theorem atom_of_sameScalar {left right : Value} (same : sameScalar left right = true) :
    ∃ form, left.atom? = some form ∧ right.atom? = some form := by
  unfold sameScalar at same
  split at same
  · exact ⟨_, rfl, rfl⟩
  · cases eq_of_beq same
    exact ⟨_, rfl, rfl⟩
  · cases eq_of_beq same
    exact ⟨_, rfl, rfl⟩
  · cases eq_of_beq same
    exact ⟨_, rfl, rfl⟩
  · rw [DateTime.same_iff] at same
    exact ⟨_, rfl, by rw [atom?, same]⟩
  · split at same
    case h_1 isNumber isOther =>
      obtain ⟨quantity, isQuantity, isSame⟩ := (Number.same_iff _ _).mp same
      exact ⟨_, atom?_of_quantity isNumber isQuantity, atom?_of_quantity isOther isSame⟩
    case h_2 => cases same

theorem sameScalar_of_quantity {left right : Value} {number other : Number}
    (isNumber : left.quantity? = some number) (isOther : right.quantity? = some other) :
    sameScalar left right = number.same other := by
  unfold sameScalar
  split
  case h_6 => rw [isNumber, isOther]
  all_goals cases isNumber

/-- How a value comes to its form. -/
inductive HasAtom : Value → KeyForm → Prop where
  | null : HasAtom null .null
  | text (value : Text) : HasAtom (text value) (.text value)
  | bytes (value : List UInt8) : HasAtom (bytes value) (.bytes value)
  | date (value : Date) : HasAtom (date value) (.date value)
  | dateTime {time : DateTime} {moment : Moment} :
      time.moment = moment → HasAtom (dateTime time) (.moment moment)
  | nan (origin : Origin) : HasAtom (nan origin) (.nan origin)
  | function (origin : Origin) (parameters : List Text) (body : Expr) (scope : Scope)
      (source : Source) : HasAtom (function origin parameters body scope source) (.function origin)
  | knot (owner : Text) (nodes : List (Layer Value (Link Value))) (index : Nat) :
      HasAtom (knot owner nodes index) (.knot owner index)
  | quantity {value : Value} {number : Number} {quantity : Quantity} :
      value.quantity? = some number → number.quantity? = some quantity →
      HasAtom value (.quantity quantity)

theorem hasAtom_of_atom {value : Value} {form : KeyForm} (isForm : value.atom? = some form) :
    HasAtom value form := by
  unfold atom? at isForm
  split at isForm
  case h_9 =>
    obtain ⟨_, isQuantity, rfl⟩ := Option.map_eq_some_iff.mp isForm
    obtain ⟨number, isNumber, isSame⟩ := Option.bind_eq_some_iff.mp isQuantity
    exact .quantity isNumber isSame
  case h_5 =>
    cases isForm
    exact .dateTime rfl
  all_goals
    cases isForm
    constructor

theorem identical_or_sameScalar {left right : Value} {form : KeyForm}
    (isForm : HasAtom left form) (isOther : HasAtom right form) :
    identical left right = true ∨ sameScalar left right = true := by
  cases isForm with
  | null =>
      cases isOther
      exact .inr rfl
  | text value =>
      cases isOther
      exact .inr (beq_self_eq_true value)
  | bytes value =>
      cases isOther
      exact .inr (beq_self_eq_true value)
  | date value =>
      cases isOther
      exact .inr (beq_self_eq_true value)
  | dateTime isMoment =>
      cases isOther with
      | dateTime isOtherMoment =>
          exact .inr ((DateTime.same_iff _ _).mpr (isMoment.trans isOtherMoment.symm))
  | nan origin =>
      cases isOther
      exact .inl (beq_self_eq_true origin)
  | function origin _ _ _ _ =>
      cases isOther
      exact .inl (beq_self_eq_true origin)
  | knot owner _ index =>
      cases isOther
      exact .inl (Bool.and_eq_true_iff.mpr ⟨beq_self_eq_true owner, beq_self_eq_true index⟩)
  | quantity isNumber isQuantity =>
      cases isOther with
      | quantity isOtherNumber isSame =>
          rw [sameScalar_of_quantity isNumber isOtherNumber]
          exact .inr ((Number.same_iff _ _).mpr ⟨_, isQuantity, isSame⟩)

theorem atom_iff (left right : Value) :
    (identical left right || sameScalar left right) = true ↔
      ∃ form, left.atom? = some form ∧ right.atom? = some form := by
  rw [Bool.or_eq_true]
  constructor
  · rintro (same | same)
    · exact atom_of_identical same
    · exact atom_of_sameScalar same
  · rintro ⟨form, isForm, isOther⟩
    exact identical_or_sameScalar (hasAtom_of_atom isForm) (hasAtom_of_atom isOther)

/-! ## Tuples -/

theorem form?_of_not_tuple {value : Value} (notTuple : ∀ items, value ≠ tuple items) :
    value.form? = value.atom? := by
  unfold form?
  split
  case h_1 items => exact absurd rfl (notTuple items)
  case h_2 => rfl

theorem tuple_of_form {value : Value} {forms : List KeyForm}
    (isForm : value.form? = some (.tuple forms)) : ∃ items, value = tuple items := by
  by_contra notTuple
  rw [form?_of_not_tuple fun items same => notTuple ⟨items, same⟩] at isForm
  cases hasAtom_of_atom isForm

theorem form_of_tuple {items : List Value} {form : KeyForm}
    (isForm : (tuple items).form? = some form) : ∃ forms, form = .tuple forms := by
  obtain ⟨forms, _, rfl⟩ := Option.map_eq_some_iff.mp isForm
  exact ⟨forms, rfl⟩

theorem sameKey_iff_of_not_tuples {left right : Value}
    (notTuples : ∀ lefts rights, left = tuple lefts → right ≠ tuple rights) :
    sameKey left right = true ↔ ∃ form, left.form? = some form ∧ right.form? = some form := by
  have unfolded : sameKey left right = (identical left right || sameScalar left right) := by
    unfold sameKey
    split
    case h_1 lefts rights => exact absurd rfl (notTuples lefts rights rfl)
    case h_2 => rfl
  rw [unfolded, atom_iff]
  -- A tuple has no atom, and its form is that of a tuple only.
  by_cases leftTuple : ∃ items, left = tuple items
  · obtain ⟨items, rfl⟩ := leftTuple
    refine iff_of_false nofun ?_
    rintro ⟨form, isForm, isOther⟩
    obtain ⟨forms, rfl⟩ := form_of_tuple isForm
    obtain ⟨others, same⟩ := tuple_of_form isOther
    exact notTuples items others rfl same
  by_cases rightTuple : ∃ items, right = tuple items
  · obtain ⟨items, rfl⟩ := rightTuple
    refine iff_of_false nofun ?_
    rintro ⟨form, isForm, isOther⟩
    obtain ⟨forms, rfl⟩ := form_of_tuple isOther
    exact leftTuple (tuple_of_form isForm)
  · rw [form?_of_not_tuple fun items same => leftTuple ⟨items, same⟩,
      form?_of_not_tuple fun items same => rightTuple ⟨items, same⟩]

theorem exists_map_eq_iff {α β : Type} {wrap : α → β}
    (injective : Function.Injective wrap) (first second : Option α) :
    (∃ result, first.map wrap = some result ∧ second.map wrap = some result) ↔
      ∃ result, first = some result ∧ second = some result := by
  constructor
  · rintro ⟨_, isFirst, isSecond⟩
    obtain ⟨result, rfl, rfl⟩ := Option.map_eq_some_iff.mp isFirst
    obtain ⟨other, rfl, same⟩ := Option.map_eq_some_iff.mp isSecond
    exact ⟨result, rfl, by rw [injective same]⟩
  · rintro ⟨result, rfl, rfl⟩
    exact ⟨wrap result, rfl, rfl⟩

theorem forms?_nil : forms? [] = some [] := by
  unfold forms?
  rfl

theorem forms?_cons {value : Value} {values : List Value} {forms : List KeyForm} :
    forms? (value :: values) = some forms ↔
      ∃ form others, value.form? = some form ∧ forms? values = some others ∧
        form :: others = forms := by
  rw [forms?, Option.bind_eq_some_iff]
  simp only [Option.map_eq_some_iff, exists_and_left]

mutual

theorem sameKey_iff (left right : Value) :
    sameKey left right = true ↔ ∃ form, left.form? = some form ∧ right.form? = some form := by
  cases left with
  | tuple lefts =>
      cases right with
      | tuple rights =>
          unfold sameKey form?
          rw [sameKeys_iff lefts rights, exists_map_eq_iff fun _ _ => KeyForm.tuple.inj]
      | _ => exact sameKey_iff_of_not_tuples (by rintro _ _ _ ⟨⟩)
  | _ => exact sameKey_iff_of_not_tuples (by rintro _ _ ⟨⟩)

theorem sameKeys_iff (lefts rights : List Value) :
    sameKeys lefts rights = true ↔
      ∃ forms, forms? lefts = some forms ∧ forms? rights = some forms := by
  cases lefts with
  | nil =>
      cases rights with
      | nil => exact iff_of_true (by unfold sameKeys; rfl) ⟨[], forms?_nil, forms?_nil⟩
      | cons right rights =>
          refine iff_of_false (by unfold sameKeys; exact Bool.false_ne_true) ?_
          rintro ⟨forms, isForms, isOther⟩
          obtain ⟨_, _, _, _, rfl⟩ := forms?_cons.mp isOther
          rw [forms?_nil] at isForms
          cases isForms
  | cons left lefts =>
      cases rights with
      | nil =>
          refine iff_of_false (by unfold sameKeys; exact Bool.false_ne_true) ?_
          rintro ⟨forms, isForms, isOther⟩
          obtain ⟨_, _, _, _, rfl⟩ := forms?_cons.mp isForms
          rw [forms?_nil] at isOther
          cases isOther
      | cons right rights =>
          unfold sameKeys
          rw [Bool.and_eq_true, sameKey_iff left right, sameKeys_iff lefts rights]
          constructor
          · rintro ⟨⟨form, isForm, isOther⟩, forms, areForms, areOthers⟩
            exact ⟨form :: forms, forms?_cons.mpr ⟨form, forms, isForm, areForms, rfl⟩,
              forms?_cons.mpr ⟨form, forms, isOther, areOthers, rfl⟩⟩
          · rintro ⟨_, areForms, areOthers⟩
            obtain ⟨form, forms, isForm, inForms, rfl⟩ := forms?_cons.mp areForms
            obtain ⟨_, _, isOther, inOthers, same⟩ := forms?_cons.mp areOthers
            cases same
            exact ⟨⟨form, isForm, isOther⟩, forms, inForms, inOthers⟩

end

/-! ## Keys that are the same -/

theorem sameKey_symm {left right : Value} (same : sameKey left right = true) :
    sameKey right left = true := by
  rw [sameKey_iff] at same ⊢
  obtain ⟨form, isForm, isOther⟩ := same
  exact ⟨form, isOther, isForm⟩

theorem sameKey_trans {first second third : Value} (same : sameKey first second = true)
    (next : sameKey second third = true) : sameKey first third = true := by
  rw [sameKey_iff] at same next ⊢
  obtain ⟨form, isFirst, isSecond⟩ := same
  obtain ⟨other, isSame, isThird⟩ := next
  cases isSecond.symm.trans isSame
  exact ⟨form, isFirst, isThird⟩

end Value

end ConfigGraph
