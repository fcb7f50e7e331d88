import ConfigGraph.Proofs.Grammar.Reading

/-!
# The machine accepts what the grammar derives

From the start of an operand, inside of any frames that fit around it, the machine reads the tokens
of a derivation without getting stuck (`Derives.accepts`).  There is one lemma for each rule of the
grammar.
-/

namespace ConfigGraph.Grammar

open ConfigGraph.Parser

variable {isIdentifier : Text → Prop}

/-! ## Bindings, functions and conditionals -/

theorem accepts_letIn {letWord name equals inWord : Token} {values bodies : List Token}
    {value body : Expr} (isLet : letWord.terminal = .keyword .letWord)
    (isName : name.terminal = .name) (isEquals : equals.terminal = .equals)
    (valueAccepts : Accepts isIdentifier .expr values value)
    (isIn : inWord.terminal = .keyword .inWord)
    (bodyAccepts : Accepts isIdentifier .expr bodies body) :
    Accepts isIdentifier .expr (letWord :: name :: equals :: (values ++ inWord :: bodies))
      (.letIn ⟨letWord.start, body.span.stop⟩ name.lexeme value body) := by
  intro frames fits
  have first : Steps isIdentifier ⟨.operand, frames⟩ [letWord] ⟨.letName letWord.start, frames⟩ :=
    .single (expects_exprStart fits isLet (by decide) (by decide))
      (by unfold State.step stepOperand; rw [isLet])
  have second : Steps isIdentifier ⟨.letName letWord.start, frames⟩ [name]
      ⟨.letEquals letWord.start name.lexeme, frames⟩ :=
    .single (expects_of_mode Mode.noConfusion (by simp [State.accepted, isName]))
      (by unfold State.step; rw [isName])
  have third : Steps isIdentifier ⟨.letEquals letWord.start name.lexeme, frames⟩ [equals]
      ⟨.operand, .letValue letWord.start name.lexeme :: frames⟩ :=
    .single (expects_of_accepted (by simp [isEquals]) (by simp [State.accepted, isEquals]))
      (by unfold State.step; rw [isEquals])
  have bound := valueAccepts.close (.letValue letWord.start name.lexeme) frames
    ⟨.operand, .letBody letWord.start name.lexeme value :: frames⟩ rfl (by rw [isIn]; decide)
    (by unfold stepEnd; rw [isIn])
  have inside := bodyAccepts (.letBody letWord.start name.lexeme value :: frames)
    (fits_cons frames rfl)
  have whole := inside.open (first.trans (second.trans (third.trans bound))) rfl
  simpa [Frame.wrap] using whole

theorem steps_parameters (start : Nat) (frames : List Frame) {parameters : List Token}
    (names : ∀ parameter ∈ parameters, parameter.terminal = .name) (before : List Text) :
    Steps isIdentifier ⟨.parameters start before, frames⟩ parameters
      ⟨.parameters start (before ++ parameters.map Token.lexeme), frames⟩ := by
  induction parameters generalizing before with
  | nil =>
      rw [List.map_nil, List.append_nil]
      exact .refl
  | cons parameter parameters induction =>
      obtain ⟨isName, others⟩ := List.forall_mem_cons.mp names
      have rest := induction others (before ++ [parameter.lexeme])
      rw [List.append_assoc, List.singleton_append, ← List.map_cons] at rest
      exact .step
        (expects_of_mode Mode.noConfusion (by simp [State.accepted, isName]))
        (by unfold State.step; rw [isName]) rest

theorem accepts_function {funWord arrow : Token} {parameters bodies : List Token} {body : Expr}
    (isFun : funWord.terminal = .keyword .funWord)
    (names : ∀ parameter ∈ parameters, parameter.terminal = .name)
    (isArrow : arrow.terminal = .arrow) (bodyAccepts : Accepts isIdentifier .expr bodies body) :
    Accepts isIdentifier .expr (funWord :: (parameters ++ arrow :: bodies))
      (.function ⟨funWord.start, body.span.stop⟩ (parameters.map Token.lexeme) body) := by
  intro frames fits
  have first : Steps isIdentifier ⟨.operand, frames⟩ [funWord]
      ⟨.parameters funWord.start [], frames⟩ :=
    .single (expects_exprStart fits isFun (by decide) (by decide))
      (by unfold State.step stepOperand; rw [isFun])
  have second := @steps_parameters isIdentifier funWord.start frames _ names []
  have third : Steps isIdentifier
      ⟨.parameters funWord.start (parameters.map Token.lexeme), frames⟩ [arrow]
      ⟨.operand, .functionBody funWord.start (parameters.map Token.lexeme) :: frames⟩ :=
    .single (expects_of_accepted (by simp [isArrow]) (by simp [State.accepted, isArrow]))
      (by unfold State.step; rw [isArrow])
  have inside := bodyAccepts (.functionBody funWord.start (parameters.map Token.lexeme) :: frames)
    (fits_cons frames rfl)
  have whole := inside.open (first.trans (second.trans third)) rfl
  simpa [Frame.wrap] using whole

theorem accepts_conditional {ifWord thenWord elseWord : Token}
    {conditions thens elses : List Token} {condition thenBranch elseBranch : Expr}
    (isIf : ifWord.terminal = .keyword .ifWord) (isThen : thenWord.terminal = .keyword .thenWord)
    (isElse : elseWord.terminal = .keyword .elseWord)
    (conditionAccepts : Accepts isIdentifier .expr conditions condition)
    (thenAccepts : Accepts isIdentifier .expr thens thenBranch)
    (elseAccepts : Accepts isIdentifier .expr elses elseBranch) :
    Accepts isIdentifier .expr (ifWord :: (conditions ++ thenWord :: (thens ++ elseWord :: elses)))
      (.conditional ⟨ifWord.start, elseBranch.span.stop⟩ condition thenBranch elseBranch) := by
  intro frames fits
  have first : Steps isIdentifier ⟨.operand, frames⟩ [ifWord]
      ⟨.operand, .condition ifWord.start :: frames⟩ :=
    .single (expects_exprStart fits isIf (by decide) (by decide))
      (by unfold State.step stepOperand; rw [isIf])
  have second := conditionAccepts.close (.condition ifWord.start) frames
    ⟨.operand, .thenBranch ifWord.start condition :: frames⟩ rfl (by rw [isThen]; decide)
    (by unfold stepEnd; rw [isThen])
  have third := thenAccepts.close (.thenBranch ifWord.start condition) frames
    ⟨.operand, .elseBranch ifWord.start condition thenBranch :: frames⟩ rfl
    (by rw [isElse]; decide) (by unfold stepEnd; rw [isElse])
  have inside := elseAccepts (.elseBranch ifWord.start condition thenBranch :: frames)
    (fits_cons frames rfl)
  have whole := inside.open (first.trans (second.trans third)) rfl
  simpa [Frame.wrap] using whole

/-! ## Operators -/

theorem accepts_operation {tokens : List Token} {expr : Expr}
    (accepts : Accepts isIdentifier (.level 0) tokens expr) :
    Accepts isIdentifier .expr tokens expr := by
  intro frames fits
  exact (accepts frames fits).weaken fun _ => Frame.endsWithExpr_of_bindsAt

theorem accepts_tighter {level : Nat} {tokens : List Token} {expr : Expr}
    (accepts : Accepts isIdentifier (.level (level + 1)) tokens expr) :
    Accepts isIdentifier (.level level) tokens expr := by
  intro frames fits
  have more := Nat.le_succ level
  exact (accepts frames (fits.mono more)).weaken fun _ => Frame.bindsAt_of_le more

theorem accepts_binary {level : Nat} {operator : Token} {lefts rights : List Token}
    {left right : Expr} (genuine : Genuine operator)
    (terminal : operatorTerminals[level]? = some operator.terminal)
    (leftAccepts : Accepts isIdentifier (.level (leftLevel level)) lefts left)
    (rightAccepts : Accepts isIdentifier (.level (level + 1)) rights right) :
    Accepts isIdentifier (.level level) (lefts ++ operator :: rights)
      (.binary ⟨left.span.start, right.span.stop⟩ (BinaryOperator.ofLexeme operator.lexeme)
        left right) := by
  intro frames fits
  have isLevel := level_ofLexeme genuine terminal
  have more : level ≤ leftLevel level := by
    unfold leftLevel
    split <;> omega
  obtain ⟨inner, operand, flag, steps, all, wrapped⟩ := leftAccepts frames (fits.mono more)
  have ends : operator.terminal ∈ operandEnds := by
    have listed : ∀ other ∈ operatorTerminals, other ∈ operandEnds := by decide
    exact listed _ (List.mem_of_getElem? terminal)
  have moves : Steps isIdentifier ⟨.operator operand flag, inner ++ frames⟩ [operator]
      ⟨.operand, .binary (BinaryOperator.ofLexeme operator.lexeme) left :: frames⟩ := by
    apply Steps.single (expects_operandEnd ends)
    rw [← wrapped]
    exact stepOperator_infix genuine terminal all fits
  have noRightOperator :
      (Frame.binary (BinaryOperator.ofLexeme operator.lexeme) left).bindsAt (level + 1) =
        false := by
    simp [Frame.bindsAt, isLevel]
  have inside := (rightAccepts (.binary (BinaryOperator.ofLexeme operator.lexeme) left :: frames)
    (fits_cons frames noRightOperator)).weaken fun _ => Frame.bindsAt_of_le (Nat.le_succ level)
  have whole := inside.open (steps.trans moves) (by simp [Frame.bindsAt, isLevel])
  simpa [Frame.wrap] using whole

theorem accepts_unary {operator : Token} {operands : List Token} {operand : Expr}
    (isUnary : operator.terminal = .unary)
    (accepts : Accepts isIdentifier (.level unaryLevel) operands operand) :
    Accepts isIdentifier (.level unaryLevel) (operator :: operands)
      (.unary ⟨operator.start, operand.span.stop⟩ (UnaryOperator.ofLexeme operator.lexeme)
        operand) := by
  intro frames _
  have first : Steps isIdentifier ⟨.operand, frames⟩ [operator]
      ⟨.operand, .unary operator.start (UnaryOperator.ofLexeme operator.lexeme) :: frames⟩ :=
    .single (expects_operandStart isUnary (by decide) (by decide))
      (by unfold State.step stepOperand; rw [isUnary])
  have inside := accepts (.unary operator.start (UnaryOperator.ofLexeme operator.lexeme) :: frames)
    (fits_unaryLevel _)
  exact inside.open first rfl

theorem accepts_operand {tokens : List Token} {expr : Expr}
    (accepts : Accepts isIdentifier .primary tokens expr) :
    Accepts isIdentifier (.level unaryLevel) tokens expr := by
  intro frames _
  obtain ⟨flag, steps⟩ := accepts frames
  exact ⟨[], expr, flag, steps, by simp, rfl⟩

/-! ## Accesses and calls -/

theorem accepts_access {dot name : Token} {targets : List Token} {target : Expr}
    (accepts : Accepts isIdentifier .primary targets target) (isDot : dot.terminal = .dot)
    (isFieldName : IsFieldName name) :
    Accepts isIdentifier .primary (targets ++ [dot, name])
      (.access ⟨target.span.start, name.stop⟩ target (fieldNameOf name)) := by
  intro frames
  obtain ⟨flag, steps⟩ := accepts frames
  have first : Steps isIdentifier ⟨.operator target flag, frames⟩ [dot]
      ⟨.accessName target, frames⟩ :=
    .single (expects_operandEnd (by rw [isDot]; decide))
      (by unfold State.step stepOperator; rw [isDot])
  have second : Steps isIdentifier ⟨.accessName target, frames⟩ [name]
      ⟨.operator (.access ⟨target.span.start, name.stop⟩ target (fieldNameOf name)) true,
        frames⟩ := by
    rcases isFieldName with isName | isString
    · exact .single
        (expects_of_mode Mode.noConfusion (by simp [State.accepted, isName]))
        (by unfold State.step; rw [isName])
    · exact .single
        (expects_of_mode Mode.noConfusion (by simp [State.accepted, isString]))
        (by unfold State.step; rw [isString])
  exact ⟨true, steps.trans (first.trans second)⟩

theorem Accepts.openCall {callees : List Token} {callee : Expr}
    (accepts : Accepts isIdentifier .primary callees callee) {opening : Token}
    (isOpening : opening.terminal = .openParen) (frames : List Frame) :
    Steps isIdentifier ⟨.operand, frames⟩ (callees ++ [opening])
      ⟨.operand, .call callee [] :: frames⟩ := by
  obtain ⟨flag, steps⟩ := accepts frames
  apply steps.trans
  exact .single (expects_operandEnd (by rw [isOpening]; decide))
    (by unfold State.step stepOperator; rw [isOpening])

theorem accepts_callEmpty {opening closing : Token} {callees : List Token} {callee : Expr}
    (accepts : Accepts isIdentifier .primary callees callee)
    (isOpening : opening.terminal = .openParen) (isClosing : closing.terminal = .closeParen) :
    Accepts isIdentifier .primary (callees ++ [opening, closing])
      (.call ⟨callee.span.start, closing.stop⟩ callee []) := by
  intro frames
  have opens := accepts.openCall isOpening frames
  have closes : Steps isIdentifier ⟨.operand, .call callee [] :: frames⟩ [closing]
      ⟨.operator (.call ⟨callee.span.start, closing.stop⟩ callee []) false, frames⟩ :=
    .single (expects_of_accepted (by simp [isClosing]) (by simp [State.accepted, isClosing]))
      (by unfold State.step stepOperand Outcome.operand; rw [isClosing])
  refine ⟨false, ?_⟩
  simpa using opens.trans closes

/-- The members of a call or an array, and the token behind the last of them. -/
theorem steps_items (container : List Expr → Frame) (frames : List Frame)
    (stays : ∀ items, (container items).endsWithExpr = false)
    (goesOn : ∀ items expr comma, comma.terminal = .comma →
      stepEnd expr (container items :: frames) comma =
        .next ⟨.operand, container (items ++ [expr]) :: frames⟩)
    {members : List Item} {tokens : List Token} (separated : Separated Item.tokens members tokens)
    (accepts : ∀ member ∈ members, Accepts isIdentifier .expr member.tokens member.expr) :
    ∃ init last, members.map Item.expr = init ++ [last] ∧
      ∀ token next, token.terminal ∈ exprEnds →
        stepEnd last (container init :: frames) token = .next next →
        Steps isIdentifier ⟨.operand, container [] :: frames⟩ (tokens ++ [token]) next := by
  induction separated with
  | single member =>
      refine ⟨[], member.expr, rfl, fun token next ends moves => ?_⟩
      exact (accepts member List.mem_cons_self).close _ _ _ (stays []) ends moves
  | @more comma members tokens last _ isComma induction =>
      obtain ⟨init, before, same, reads⟩ :=
        induction fun member isMember => accepts member (List.mem_append_left _ isMember)
      have toComma := reads comma _ (by rw [isComma]; decide) (goesOn init before comma isComma)
      have lastAccepts := accepts last (List.mem_append_right _ List.mem_cons_self)
      refine ⟨members.map Item.expr, last.expr, by simp, fun token next ends moves => ?_⟩
      rw [same] at moves
      have whole := toComma.trans (lastAccepts.close _ _ _ (stays (init ++ [before])) ends moves)
      simpa using whole

theorem accepts_call {opening closing : Token} {callees tokens : List Token} {callee : Expr}
    {arguments : List Item} (accepts : Accepts isIdentifier .primary callees callee)
    (isOpening : opening.terminal = .openParen) (separated : Separated Item.tokens arguments tokens)
    (argumentsAccept : ∀ argument ∈ arguments,
      Accepts isIdentifier .expr argument.tokens argument.expr)
    (isClosing : closing.terminal = .closeParen) :
    Accepts isIdentifier .primary (callees ++ opening :: (tokens ++ [closing]))
      (.call ⟨callee.span.start, closing.stop⟩ callee (arguments.map Item.expr)) := by
  intro frames
  have opens := accepts.openCall isOpening frames
  have goesOn : ∀ items expr comma, comma.terminal = .comma →
      stepEnd expr (.call callee items :: frames) comma =
        .next ⟨.operand, .call callee (items ++ [expr]) :: frames⟩ := by
    intro items expr comma isComma
    unfold stepEnd
    rw [isComma]
  obtain ⟨init, last, same, reads⟩ := steps_items (.call callee) frames (fun _ => rfl) goesOn
    separated argumentsAccept
  have closes := reads closing
    ⟨.operator (.call ⟨callee.span.start, closing.stop⟩ callee (init ++ [last])) false, frames⟩
    (by rw [isClosing]; decide) (by unfold stepEnd Outcome.operand; rw [isClosing])
  refine ⟨false, ?_⟩
  rw [same]
  simpa using opens.trans closes

/-! ## Atoms -/

theorem accepts_token {token : Token} {expr : Expr} {terminal : Terminal}
    (is : token.terminal = terminal) (noName : terminal ≠ .name)
    (starts : terminal ∈ operandStarts)
    (moves : ∀ frames, stepOperand frames token = .operand expr frames) :
    Accepts isIdentifier .atom [token] expr := by
  intro frames
  exact ⟨false, .single (expects_operandStart is noName starts) (moves frames)⟩

theorem accepts_identifier {token : Token} (isName : token.terminal = .name)
    (identifier : isIdentifier token.lexeme) :
    Accepts isIdentifier .atom [token] (.identifier token.span token.lexeme) := by
  intro frames
  refine ⟨false, .single (expects_identifier isName identifier) ?_⟩
  unfold State.step stepOperand Outcome.operand; rw [isName]

theorem accepts_importOf {importWord path : Token}
    (isImport : importWord.terminal = .keyword .importWord) (isString : path.terminal = .string) :
    Accepts isIdentifier .atom [importWord, path]
      (.importOf ⟨importWord.start, path.stop⟩ (stringValue path)) := by
  intro frames
  have first : Steps isIdentifier ⟨.operand, frames⟩ [importWord]
      ⟨.importPath importWord.start, frames⟩ :=
    .single (expects_operandStart isImport (by decide) (by decide))
      (by unfold State.step stepOperand; rw [isImport])
  have second : Steps isIdentifier ⟨.importPath importWord.start, frames⟩ [path]
      ⟨.operator (.importOf ⟨importWord.start, path.stop⟩ (stringValue path)) false, frames⟩ :=
    .single (expects_of_accepted (by simp [isString]) (by simp [State.accepted, isString]))
      (by unfold State.step Outcome.operand; rw [isString])
  exact ⟨false, first.trans second⟩

theorem accepts_group {opening closing : Token} {tokens : List Token} {expr : Expr}
    (isOpening : opening.terminal = .openParen) (accepts : Accepts isIdentifier .expr tokens expr)
    (isClosing : closing.terminal = .closeParen) :
    Accepts isIdentifier .atom (opening :: (tokens ++ [closing])) expr := by
  intro frames
  have opens : Steps isIdentifier ⟨.operand, frames⟩ [opening] ⟨.operand, .group :: frames⟩ :=
    .single (expects_operandStart isOpening (by decide) (by decide))
      (by unfold State.step stepOperand; rw [isOpening])
  have closes := accepts.close (.group) frames
    ⟨.operator expr false, frames⟩ rfl (by rw [isClosing]; decide)
    (by unfold stepEnd Outcome.operand; rw [isClosing])
  exact ⟨false, opens.trans closes⟩

/-! ## Arrays -/

theorem steps_openArray {opening : Token} (isOpening : opening.terminal = .openBracket)
    (frames : List Frame) :
    Steps isIdentifier ⟨.operand, frames⟩ [opening] ⟨.operand, .array opening.start [] :: frames⟩ :=
  .single (expects_operandStart isOpening (by decide) (by decide))
    (by unfold State.step stepOperand; rw [isOpening])

/-- The bracket at the end of an array, where an item could start. -/
theorem steps_closeArray {closing : Token} (isClosing : closing.terminal = .closeBracket)
    (start : Nat) (items : List Expr) (frames : List Frame) :
    Steps isIdentifier ⟨.operand, .array start items :: frames⟩ [closing]
      ⟨.operator (.array ⟨start, closing.stop⟩ items) false, frames⟩ :=
  .single (expects_of_accepted (by simp [isClosing]) (by simp [State.accepted, isClosing]))
    (by unfold State.step stepOperand Outcome.operand; rw [isClosing])

theorem accepts_arrayEmpty {opening closing : Token} (isOpening : opening.terminal = .openBracket)
    (isClosing : closing.terminal = .closeBracket) :
    Accepts isIdentifier .atom [opening, closing] (.array ⟨opening.start, closing.stop⟩ []) := by
  intro frames
  exact ⟨false, (steps_openArray isOpening frames).trans (steps_closeArray isClosing _ _ _)⟩

theorem accepts_array {opening closing : Token} {tokens trailing : List Token} {items : List Item}
    (isOpening : opening.terminal = .openBracket) (separated : Separated Item.tokens items tokens)
    (itemsAccept : ∀ item ∈ items, Accepts isIdentifier .expr item.tokens item.expr)
    (isTrailing : Trailing trailing) (isClosing : closing.terminal = .closeBracket) :
    Accepts isIdentifier .atom (opening :: (tokens ++ (trailing ++ [closing])))
      (.array ⟨opening.start, closing.stop⟩ (items.map Item.expr)) := by
  intro frames
  have opens := @steps_openArray isIdentifier _ isOpening frames
  have goesOn : ∀ items expr comma, comma.terminal = .comma →
      stepEnd expr (.array opening.start items :: frames) comma =
        .next ⟨.operand, .array opening.start (items ++ [expr]) :: frames⟩ := by
    intro items expr comma isComma
    unfold stepEnd
    rw [isComma]
  obtain ⟨init, last, same, reads⟩ := steps_items (.array opening.start) frames (fun _ => rfl)
    goesOn separated itemsAccept
  refine ⟨false, ?_⟩
  rw [same]
  cases isTrailing with
  | nothing =>
      have closes := reads closing
        ⟨.operator (.array ⟨opening.start, closing.stop⟩ (init ++ [last])) false, frames⟩
        (by rw [isClosing]; decide) (by unfold stepEnd Outcome.operand; rw [isClosing])
      simpa using opens.trans closes
  | @comma comma isComma =>
      have toComma := reads comma _ (by rw [isComma]; decide) (goesOn init last comma isComma)
      have closes := toComma.trans
        (steps_closeArray isClosing opening.start (init ++ [last]) frames)
      simpa using opens.trans closes

/-! ## Records -/

theorem steps_openRecord {opening : Token} (isOpening : opening.terminal = .openBrace)
    (frames : List Frame) :
    Steps isIdentifier ⟨.operand, frames⟩ [opening]
      ⟨.fieldName, .record opening.start [] :: frames⟩ :=
  .single (expects_operandStart isOpening (by decide) (by decide))
    (by unfold State.step stepOperand; rw [isOpening])

/-- The brace at the end of a record, where a field could start. -/
theorem steps_closeRecord {closing : Token} (isClosing : closing.terminal = .closeBrace)
    (start : Nat) (fields : List Field) (frames : List Frame) :
    Steps isIdentifier ⟨.fieldName, .record start fields :: frames⟩ [closing]
      ⟨.operator (.record ⟨start, closing.stop⟩ fields) false, frames⟩ :=
  .single (expects_of_accepted (by simp [isClosing]) (by simp [State.accepted, isClosing]))
    (by unfold State.step Outcome.operand; rw [isClosing])

theorem steps_field {item : FieldItem} (wellFormed : item.WellFormed)
    (accepts : Accepts isIdentifier .expr item.values item.value) {start : Nat}
    {fields : List Field} {frames : List Frame} {token : Token} {next : State}
    (ends : token.terminal ∈ exprEnds)
    (moves : stepEnd item.value
      (.field start fields item.name.start (fieldNameOf item.name) :: frames) token = .next next) :
    Steps isIdentifier ⟨.fieldName, .record start fields :: frames⟩ (item.tokens ++ [token])
      next := by
  obtain ⟨isFieldName, isEquals⟩ := wellFormed
  have first : Steps isIdentifier ⟨.fieldName, .record start fields :: frames⟩ [item.name]
      ⟨.fieldEquals item.name.start (fieldNameOf item.name), .record start fields :: frames⟩ := by
    rcases isFieldName with isName | isString
    · exact .single
        (expects_of_mode Mode.noConfusion (by simp [State.accepted, isName]))
        (by unfold State.step; rw [isName])
    · exact .single
        (expects_of_mode Mode.noConfusion (by simp [State.accepted, isString]))
        (by unfold State.step; rw [isString])
  have second : Steps isIdentifier
      ⟨.fieldEquals item.name.start (fieldNameOf item.name), .record start fields :: frames⟩
      [item.equals]
      ⟨.operand, .field start fields item.name.start (fieldNameOf item.name) :: frames⟩ :=
    .single (expects_of_accepted (by simp [isEquals]) (by simp [State.accepted, isEquals]))
      (by unfold State.step; rw [isEquals])
  have third := accepts.close _ _ _ rfl ends moves
  exact first.trans (second.trans third)

/-- The fields of a record, and the token behind the last of them. -/
theorem steps_fields (start : Nat) (frames : List Frame) {items : List FieldItem}
    {tokens : List Token} (separated : Separated FieldItem.tokens items tokens)
    (wellFormed : ∀ item ∈ items, item.WellFormed)
    (accepts : ∀ item ∈ items, Accepts isIdentifier .expr item.values item.value) :
    ∃ fields last, items.map FieldItem.field = fields ++ [FieldItem.field last] ∧
      ∀ token next, token.terminal ∈ exprEnds →
        stepEnd last.value
          (.field start fields last.name.start (fieldNameOf last.name) :: frames) token =
            .next next →
        Steps isIdentifier ⟨.fieldName, .record start [] :: frames⟩ (tokens ++ [token]) next := by
  induction separated with
  | single item =>
      refine ⟨[], item, rfl, fun token next ends moves => ?_⟩
      exact steps_field (wellFormed item List.mem_cons_self) (accepts item List.mem_cons_self)
        ends moves
  | @more comma items tokens last _ isComma induction =>
      obtain ⟨fields, before, same, reads⟩ := induction
        (fun item member => wellFormed item (List.mem_append_left _ member))
        (fun item member => accepts item (List.mem_append_left _ member))
      have isLast : last ∈ items ++ [last] := List.mem_append_right _ List.mem_cons_self
      have toComma := reads comma
        ⟨.fieldName, .record start (fields ++ [FieldItem.field before]) :: frames⟩
        (by rw [isComma]; decide) (by unfold stepEnd; rw [isComma]; rfl)
      refine ⟨items.map FieldItem.field, last, by simp, fun token next ends moves => ?_⟩
      rw [same] at moves
      have whole := toComma.trans
        (steps_field (wellFormed last isLast) (accepts last isLast) ends moves)
      simpa using whole

theorem accepts_recordEmpty {opening closing : Token} (isOpening : opening.terminal = .openBrace)
    (isClosing : closing.terminal = .closeBrace) :
    Accepts isIdentifier .atom [opening, closing] (.record ⟨opening.start, closing.stop⟩ []) := by
  intro frames
  exact ⟨false, (steps_openRecord isOpening frames).trans (steps_closeRecord isClosing _ _ _)⟩

theorem accepts_record {opening closing : Token} {tokens trailing : List Token}
    {items : List FieldItem} (isOpening : opening.terminal = .openBrace)
    (separated : Separated FieldItem.tokens items tokens)
    (wellFormed : ∀ item ∈ items, item.WellFormed)
    (valuesAccept : ∀ item ∈ items, Accepts isIdentifier .expr item.values item.value)
    (isTrailing : Trailing trailing) (isClosing : closing.terminal = .closeBrace) :
    Accepts isIdentifier .atom (opening :: (tokens ++ (trailing ++ [closing])))
      (.record ⟨opening.start, closing.stop⟩ (items.map FieldItem.field)) := by
  intro frames
  have opens := @steps_openRecord isIdentifier _ isOpening frames
  obtain ⟨fields, last, same, reads⟩ :=
    steps_fields opening.start frames separated wellFormed valuesAccept
  refine ⟨false, ?_⟩
  rw [same]
  cases isTrailing with
  | nothing =>
      have closes := reads closing
        ⟨.operator (.record ⟨opening.start, closing.stop⟩ (fields ++ [FieldItem.field last])) false,
          frames⟩
        (by rw [isClosing]; decide)
        (by unfold stepEnd Outcome.operand; rw [isClosing]; rfl)
      simpa using opens.trans closes
  | @comma comma isComma =>
      have toComma := reads comma
        ⟨.fieldName, .record opening.start (fields ++ [FieldItem.field last]) :: frames⟩
        (by rw [isComma]; decide) (by unfold stepEnd; rw [isComma]; rfl)
      have closes := toComma.trans
        (steps_closeRecord isClosing opening.start (fields ++ [FieldItem.field last]) frames)
      simpa using opens.trans closes

/-! ## All rules -/

/-- The machine reads every row of genuine tokens that the grammar derives, and has the derived tree
then. -/
theorem Derives.accepts {category : Category} {tokens : List Token} {expr : Expr}
    (derivation : Derives isIdentifier category tokens expr)
    (genuine : ∀ token ∈ tokens, Genuine token) : Accepts isIdentifier category tokens expr := by
  induction derivation with
  | letIn isLet isName isEquals _ isIn _ value body =>
      simp only [List.forall_mem_cons, List.forall_mem_append] at genuine
      obtain ⟨_, _, _, values, _, bodies⟩ := genuine
      exact accepts_letIn isLet isName isEquals (value values) isIn (body bodies)
  | function isFun names isArrow _ body =>
      simp only [List.forall_mem_cons, List.forall_mem_append] at genuine
      obtain ⟨_, _, _, bodies⟩ := genuine
      exact accepts_function isFun names isArrow (body bodies)
  | conditional isIf _ isThen _ isElse _ condition thenBranch elseBranch =>
      simp only [List.forall_mem_cons, List.forall_mem_append] at genuine
      obtain ⟨_, conditions, _, thens, _, elses⟩ := genuine
      exact accepts_conditional isIf isThen isElse (condition conditions) (thenBranch thens)
        (elseBranch elses)
  | operation _ operation => exact accepts_operation (operation genuine)
  | tighter _ _ tighter => exact accepts_tighter (tighter genuine)
  | binary terminal _ _ left right =>
      simp only [List.forall_mem_cons, List.forall_mem_append] at genuine
      obtain ⟨lefts, operator, rights⟩ := genuine
      exact accepts_binary operator terminal (left lefts) (right rights)
  | unary isUnary _ operand =>
      exact accepts_unary isUnary (operand (List.forall_mem_cons.mp genuine).2)
  | operand _ operand => exact accepts_operand (operand genuine)
  | access _ isDot isFieldName target =>
      exact accepts_access (target (List.forall_mem_append.mp genuine).1) isDot isFieldName
  | callEmpty _ isOpening isClosing callee =>
      exact accepts_callEmpty (callee (List.forall_mem_append.mp genuine).1) isOpening isClosing
  | @call _ _ _ _ _ arguments _ isOpening separated _ isClosing callee argument =>
      simp only [List.forall_mem_cons, List.forall_mem_append] at genuine
      obtain ⟨callees, _, inside, _⟩ := genuine
      refine accepts_call (callee callees) isOpening separated ?_ isClosing
      intro one member
      exact argument one member fun token isToken =>
        inside token (separated.mem_of_mem member isToken)
  | plain _ atom => exact atom genuine
  | number isNumber =>
      exact accepts_token isNumber (by decide) (by decide) fun _ => by
        unfold stepOperand; rw [isNumber]
  | string isString =>
      exact accepts_token isString (by decide) (by decide) fun _ => by
        unfold stepOperand; rw [isString]
  | trueWord isTrue =>
      exact accepts_token isTrue (by decide) (by decide) fun _ => by
        unfold stepOperand; rw [isTrue]
  | falseWord isFalse =>
      exact accepts_token isFalse (by decide) (by decide) fun _ => by
        unfold stepOperand; rw [isFalse]
  | nullWord isNull =>
      exact accepts_token isNull (by decide) (by decide) fun _ => by
        unfold stepOperand; rw [isNull]
  | identifier isName identifier => exact accepts_identifier isName identifier
  | importOf isImport isString => exact accepts_importOf isImport isString
  | recordEmpty isOpening isClosing => exact accepts_recordEmpty isOpening isClosing
  | @record _ _ _ _ fields isOpening separated wellFormed _ isTrailing isClosing value =>
      simp only [List.forall_mem_cons, List.forall_mem_append] at genuine
      obtain ⟨_, inside, _⟩ := genuine
      refine accepts_record isOpening separated wellFormed ?_ isTrailing isClosing
      intro one member
      exact value one member fun token isToken =>
        inside token (separated.mem_of_mem member
          (List.mem_cons_of_mem _ (List.mem_cons_of_mem _ isToken)))
  | arrayEmpty isOpening isClosing => exact accepts_arrayEmpty isOpening isClosing
  | @array _ _ _ _ items isOpening separated _ isTrailing isClosing item =>
      simp only [List.forall_mem_cons, List.forall_mem_append] at genuine
      obtain ⟨_, inside, _⟩ := genuine
      refine accepts_array isOpening separated ?_ isTrailing isClosing
      intro one member
      exact item one member fun token isToken =>
        inside token (separated.mem_of_mem member isToken)
  | group isOpening _ isClosing inside =>
      simp only [List.forall_mem_cons, List.forall_mem_append] at genuine
      obtain ⟨_, tokens, _⟩ := genuine
      exact accepts_group isOpening (inside tokens) isClosing

end ConfigGraph.Grammar
