import ArrowCheck.Parse.Program

namespace ArrowCheck

/-- Behind a bare `return` stands a semicolon, a closing brace or nothing. -/
def EndsReturn (ts : List TokenKind) : Prop :=
  ts = [] ∨ ts.head? = some (.mark .semicolon) ∨ ts.head? = some (.mark .braceClose)

/-- A statement may be followed by a semicolon. -/
def Terminated (ts rest : List TokenKind) : Prop := ts = rest ∨ ts = .mark .semicolon :: rest

def TypeExpr.IsFunction : TypeExpr → Prop
  | .function .. => True
  | _ => False

/-- The parts of a type annotation. The suffixes make the second type of the first. -/
inductive TypePhrase
  | type (t : TypeExpr)
  | member (t : TypeExpr)
  | suffixes (base t : TypeExpr)
  | base (t : TypeExpr)
  | fields (fs : List Field)

inductive SpellsType (greedy : Bool) : TypePhrase → (ts rest : List TokenKind) → Prop
  | single {t : TypeExpr} {ts us : List TokenKind} :
    SpellsType greedy (.member t) ts us → SpellsType greedy (.type t) ts us
  | union {m t : TypeExpr} {span : Span} {ts us vs : List TokenKind} :
    (greedy = true → ¬ m.IsFunction) → SpellsType greedy (.member m) ts (.mark .pipe :: us) →
    SpellsType greedy (.type t) us vs →
    SpellsType greedy (.type (.union (m :: t.alternatives) span)) ts vs
  | member {b t : TypeExpr} {ts us vs : List TokenKind} :
    SpellsType greedy (.base b) ts us → SpellsType greedy (.suffixes b t) us vs →
    SpellsType greedy (.member t) ts vs
  | noSuffix {t : TypeExpr} {ts : List TokenKind} : SpellsType greedy (.suffixes t t) ts ts
  | suffix {b t : TypeExpr} {span : Span} {ts us : List TokenKind} :
    (greedy = true → ¬ b.IsFunction) → SpellsType greedy (.suffixes (.array b span) t) ts us →
    SpellsType greedy (.suffixes b t) (.mark .bracketOpen :: .mark .bracketClose :: ts) us
  | arrayOf {t : TypeExpr} {span : Span} {ts us : List TokenKind} :
    SpellsType greedy (.type t) ts (.mark .greater :: us) →
    SpellsType greedy (.base (.array t span)) (.typeWord .array :: .mark .less :: ts) us
  | word {w : TypeWord} {span : Span} {ts : List TokenKind} :
    SpellsType greedy (.base (.named w.text span)) (.typeWord w :: ts) ts
  | name {name : String} {span : Span} {ts : List TokenKind} :
    name ≠ "any" → SpellsType greedy (.base (.named name span)) (.ident name :: ts) ts
  | function {ps : List Field} {r : TypeExpr} {span : Span} {ts us vs : List TokenKind} :
    SpellsType greedy (.fields ps) ts (.mark .parenClose :: .mark .arrow :: us) →
    SpellsType greedy (.type r) us vs →
    SpellsType greedy (.base (.function ps r span)) (.mark .parenOpen :: ts) vs
  | object {fs : List Field} {span : Span} {ts us : List TokenKind} :
    SpellsType greedy (.fields fs) ts (.mark .braceClose :: us) →
    SpellsType greedy (.base (.object fs span)) (.mark .braceOpen :: ts) us
  | noField {ts : List TokenKind} : SpellsType greedy (.fields []) ts ts
  | lastField {name : String} {t : TypeExpr} {span : Span} {ts us : List TokenKind} :
    SpellsType greedy (.type t) ts us →
    SpellsType greedy (.fields [⟨name, t, span⟩]) (.ident name :: .mark .colon :: ts) us
  | field {name : String} {t : TypeExpr} {span : Span} {fs : List Field}
    {ts us vs : List TokenKind} :
    SpellsType greedy (.type t) ts (.mark .comma :: us) → SpellsType greedy (.fields fs) us vs →
    SpellsType greedy (.fields (⟨name, t, span⟩ :: fs)) (.ident name :: .mark .colon :: ts) vs

def SpellsAnnotated (greedy : Bool) : Option TypeExpr → (ts rest : List TokenKind) → Prop
  | none, ts, rest => ts = rest
  | some t, ts, rest => ∃ us, ts = .mark .colon :: us ∧ SpellsType greedy (.type t) us rest

inductive SpellsParams (greedy : Bool) : List Param → (ts rest : List TokenKind) → Prop
  | none {ts : List TokenKind} : SpellsParams greedy [] ts ts
  | last {node : Node} {name : String} {type : Option TypeExpr} {ts us : List TokenKind} :
    SpellsAnnotated greedy type ts us →
    SpellsParams greedy [⟨node, name, type⟩] (.ident name :: ts) us
  | cons {node : Node} {name : String} {type : Option TypeExpr} {p : Param} {ps : List Param}
    {ts us vs : List TokenKind} :
    SpellsAnnotated greedy type ts (.mark .comma :: us) → SpellsParams greedy (p :: ps) us vs →
    SpellsParams greedy (⟨node, name, type⟩ :: p :: ps) (.ident name :: ts) vs

/-- The parts of a program. The tail makes the second expression of the first. -/
inductive Phrase
  | statements (ss : List Stmt)
  | statement (s : Stmt)
  | expr (e : Expr)
  | chain (e : Expr)
  | tail (left e : Expr)
  | operand (e : Expr)
  | args (es : List Expr)
  | elements (es : List Expr)
  | properties (ps : List Property)

inductive Spells (greedy : Bool) : Phrase → (ts rest : List TokenKind) → Prop
  | noStatement {ts : List TokenKind} : Spells greedy (.statements []) ts ts
  | statement {s : Stmt} {ss : List Stmt} {ts us vs : List TokenKind} :
    Spells greedy (.statement s) ts us → Spells greedy (.statements ss) us vs →
    Spells greedy (.statements (s :: ss)) ts vs
  | const {node place : Node} {name : String} {type : Option TypeExpr} {value : Expr}
    {ts us vs ws : List TokenKind} :
    SpellsAnnotated greedy type ts (.mark .equals :: us) → Spells greedy (.expr value) us vs →
    Terminated vs ws →
    Spells greedy (.statement (.const node ⟨place, name⟩ type value))
      (.keyword .const :: .ident name :: ts) ws
  | ret {node : Node} {e : Expr} {ts us vs : List TokenKind} :
    Spells greedy (.expr e) ts us → Terminated us vs →
    Spells greedy (.statement (.ret node (some e))) (.keyword .ret :: ts) vs
  | bareRet {node : Node} {ts us : List TokenKind} :
    EndsReturn ts → Terminated ts us →
    Spells greedy (.statement (.ret node none)) (.keyword .ret :: ts) us
  | expr {e : Expr} {ts us : List TokenKind} :
    Spells greedy (.chain e) ts us → Spells greedy (.expr e) ts us
  | conditional {node : Node} {a b c : Expr} {ts us vs ws : List TokenKind} :
    Spells greedy (.chain a) ts (.mark .question :: us) →
    Spells greedy (.expr b) us (.mark .colon :: vs) → Spells greedy (.expr c) vs ws →
    Spells greedy (.expr (.conditional node a b c)) ts ws
  | chain {l e : Expr} {ts us vs : List TokenKind} :
    Spells greedy (.operand l) ts us → Spells greedy (.tail l e) us vs →
    Spells greedy (.chain e) ts vs
  | noTail {e : Expr} {ts : List TokenKind} : Spells greedy (.tail e e) ts ts
  | tail {node : Node} {k : TokenKind} {op : BinaryOp} {l r e : Expr} {ts us vs : List TokenKind} :
    Reader.operator? k = some op → Spells greedy (.operand r) ts us →
    Spells greedy (.tail (.binary node op l r) e) us vs → Spells greedy (.tail l e) (k :: ts) vs
  | string {node : Node} {text : String} {ts : List TokenKind} :
    Spells greedy (.operand (.string node (Reader.unquote text))) (.string text :: ts) ts
  | number {node : Node} {text : String} {value : Binary64} {ts : List TokenKind} :
    (∀ v, Binary64.read? text = some v → value = v) →
    Spells greedy (.operand (.number node value)) (.number text :: ts) ts
  | boolean {node : Node} {value : Bool} {ts : List TokenKind} :
    Spells greedy (.operand (.boolean node value)) (.boolean value :: ts) ts
  | ident {node : Node} {name : String} {ts : List TokenKind} :
    Spells greedy (.operand (.ident node name)) (.ident name :: ts) ts
  | call {node place : Node} {name : String} {es : List Expr} {ts us : List TokenKind} :
    Spells greedy (.args es) ts (.mark .parenClose :: us) →
    Spells greedy (.operand (.call node (.ident place name) es))
      (.ident name :: .mark .parenOpen :: ts) us
  | group {e : Expr} {ts us : List TokenKind} :
    Spells greedy (.expr e) ts (.mark .parenClose :: us) →
    Spells greedy (.operand e) (.mark .parenOpen :: ts) us
  | arrow {node place : Node} {ps : List Param} {result : Option TypeExpr} {ss : List Stmt}
    {ts us vs ws : List TokenKind} :
    SpellsParams greedy ps ts (.mark .parenClose :: us) →
    SpellsAnnotated greedy result us (.mark .arrow :: .mark .braceOpen :: vs) →
    Spells greedy (.statements ss) vs (.mark .braceClose :: ws) →
    Spells greedy (.operand (.arrow node ps result ⟨place, ss⟩)) (.mark .parenOpen :: ts) ws
  | array {node : Node} {es : List Expr} {ts us : List TokenKind} :
    Spells greedy (.elements es) ts (.mark .bracketClose :: us) →
    Spells greedy (.operand (.array node es)) (.mark .bracketOpen :: ts) us
  | object {node : Node} {ps : List Property} {ts us : List TokenKind} :
    Spells greedy (.properties ps) ts (.mark .braceClose :: us) →
    Spells greedy (.operand (.object node ps)) (.mark .braceOpen :: ts) us
  | noArg {ts : List TokenKind} : Spells greedy (.args []) ts ts
  | lastArg {e : Expr} {ts us : List TokenKind} :
    Spells greedy (.expr e) ts us → Spells greedy (.args [e]) ts us
  | arg {e e' : Expr} {es : List Expr} {ts us vs : List TokenKind} :
    Spells greedy (.expr e) ts (.mark .comma :: us) → Spells greedy (.args (e' :: es)) us vs →
    Spells greedy (.args (e :: e' :: es)) ts vs
  | noElement {ts : List TokenKind} : Spells greedy (.elements []) ts ts
  | lastElement {e : Expr} {ts us : List TokenKind} :
    Spells greedy (.expr e) ts us → Spells greedy (.elements [e]) ts us
  | element {e : Expr} {es : List Expr} {ts us vs : List TokenKind} :
    Spells greedy (.expr e) ts (.mark .comma :: us) → Spells greedy (.elements es) us vs →
    Spells greedy (.elements (e :: es)) ts vs
  | noProperty {ts : List TokenKind} : Spells greedy (.properties []) ts ts
  | lastProperty {node : Node} {k : TokenKind} {key : String} {e : Expr} {ts us : List TokenKind} :
    Reader.propertyKey? k = some key → Spells greedy (.expr e) ts us →
    Spells greedy (.properties [⟨node, key, e⟩]) (k :: .mark .colon :: ts) us
  | property {node : Node} {k : TokenKind} {key : String} {e : Expr} {ps : List Property}
    {ts us vs : List TokenKind} :
    Reader.propertyKey? k = some key → Spells greedy (.expr e) ts (.mark .comma :: us) →
    Spells greedy (.properties ps) us vs →
    Spells greedy (.properties (⟨node, key, e⟩ :: ps)) (k :: .mark .colon :: ts) vs

end ArrowCheck
