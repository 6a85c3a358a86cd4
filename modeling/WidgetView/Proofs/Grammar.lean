import WidgetView.Parse.Entry

/-!
# The grammar of views

The grammar of views, as relations on runs of tokens. `Phrase ts rest` says that a phrase stands at
the front of `ts` and that `rest` comes after it. Nothing here looks further ahead than the grammar
says: to the comma that ends an expression, to what follows a qualified name, and to the start of an
entry.
-/
namespace WidgetView

namespace Token

theorem isIdent_iff {t : Token} : t.isIdent ↔ ∃ name, t.ident? = some name :=
  Option.isSome_iff_exists

theorem punct?_of_isPunctOf {t : Token} {mark : String} (h : t.isPunctOf mark) :
    t.punct? = some mark := by
  simpa [isPunctOf] using h

/-- A mark is one mark only. -/
theorem isPunctOf_unique {t : Token} {mark mark' : String} (h : t.isPunctOf mark)
    (h' : t.isPunctOf mark') : mark = mark' :=
  Option.some.inj ((punct?_of_isPunctOf h).symm.trans (punct?_of_isPunctOf h'))

theorem isGroupOf_eq_true {t : Token} {d : Delimiter} (h : t.isGroupOf d) :
    ∃ cs s, t = .group d cs s := by
  cases t with
  | leaf l => cases h
  | group e cs s =>
    obtain rfl : e = d := by simpa [isGroupOf] using h
    exact ⟨cs, s, rfl⟩

end Token

namespace Grammar

/-- What may follow an expression: a comma, or the end of the group. -/
inductive Ends : List Token → Prop
  | done : Ends []
  | comma {t ts} (h : t.isPunctOf ",") : Ends (t :: ts)

/-- An expression is a non-empty run of tokens up to the next comma of its group, or to its end. -/
def Expression (ts rest : List Token) : Prop :=
  ∃ es, ts = es ++ rest ∧ es ≠ [] ∧ (∀ t ∈ es, ¬t.isPunctOf ",") ∧ Ends rest

/-- An optional comma. -/
inductive Comma : List Token → List Token → Prop
  | without {ts} : Comma ts ts
  | comma {t ts} (h : t.isPunctOf ",") : Comma (t :: ts) ts

/-- The contents of a group: phrases with commas between them, and perhaps one after the last. -/
inductive Listed (Phrase : List Token → List Token → Prop) : List Token → Prop
  | nil : Listed Phrase []
  | last {ts} (h : Phrase ts []) : Listed Phrase ts
  | more {ts t rest} (h : Phrase ts (t :: rest)) (hc : t.isPunctOf ",") (hm : Listed Phrase rest) :
      Listed Phrase ts

/-! ### Qualified names -/

/-- Identifiers with `::` between them. -/
inductive Segments : List Token → List String → Prop
  | one {t s} (h : t.ident? = some s) : Segments [t] [s]
  | more {t u s ts ss} (h : t.ident? = some s) (hu : u.isPunctOf "::") (hm : Segments ts ss) :
      Segments (t :: u :: ts) (s :: ss)

/-- Identifiers, `::`, commas and angle brackets, the brackets balanced. -/
inductive Balanced : List Token → Prop
  | nil : Balanced []
  | single {t ts} (h : t.isIdent ∨ t.isPunctOf "::" ∨ t.isPunctOf ",") (hm : Balanced ts) :
      Balanced (t :: ts)
  | angle {t u ts us} (ht : t.isPunctOf "<") (hin : Balanced ts) (hu : u.isPunctOf ">")
      (hout : Balanced us) : Balanced (t :: (ts ++ u :: us))

/-- Generics begin with an angle bracket and end with the one that closes it. -/
inductive Generics : List Token → Prop
  | angle {t u ts} (ht : t.isPunctOf "<") (hin : Balanced ts) (hu : u.isPunctOf ">") :
      Generics (t :: (ts ++ [u]))

/-- A qualified name and the path that it stands for, which has the position of its first token. -/
inductive Name : List Token → WidgetPath → Prop
  | plain {t ts ss} (h : Segments (t :: ts) ss) :
      Name (t :: ts) ⟨ss, none, t.span.line, t.span.column⟩
  | generic {t ts gs ss} (h : Segments (t :: ts) ss) (hg : Generics gs) :
      Name (t :: ts ++ gs) ⟨ss, some (String.ofList (render gs)), t.span.line, t.span.column⟩

theorem Segments.head {ts : List Token} {ss : List String} (h : Segments ts ss) :
    ∃ t us, ts = t :: us ∧ t.isIdent := by
  cases h with
  | one h => exact ⟨_, _, rfl, Token.isIdent_iff.mpr ⟨_, h⟩⟩
  | more h _ _ => exact ⟨_, _, rfl, Token.isIdent_iff.mpr ⟨_, h⟩⟩

theorem Name.head {ns : List Token} {path : WidgetPath} (h : Name ns path) :
    ∃ t us, ns = t :: us ∧ t.isIdent := by
  cases h with
  | plain h => exact h.head
  | generic h _ =>
    obtain ⟨t, us, heq, ht⟩ := h.head
    obtain ⟨rfl, rfl⟩ := List.cons.inj heq
    exact ⟨_, _, rfl, ht⟩

/-- What may follow a qualified name: a group, a comma, or the end. -/
inductive Follow : List Token → Prop
  | done : Follow []
  | comma {t ts} (h : t.isPunctOf ",") : Follow (t :: ts)
  | group {d cs s ts} : Follow (.group d cs s :: ts)

/-! ### Entries that are no widgets -/

/-- A parameter of an event. -/
inductive Param : List Token → List Token → Prop
  | name {t ts} (h : t.isIdent) : Param (t :: ts) ts

/-- A child property. -/
inductive Pair : List Token → List Token → Prop
  | pair {t u ts rest} (ht : t.isIdent) (hu : u.isPunctOf ":") (h : Expression ts rest) :
      Pair (t :: u :: ts) rest

/-- What an event does: a message, a message that is returned, or a message and an answer in one
group, which is used up whatever follows the answer in it. -/
inductive Effect : List Token → List Token → Prop
  | fire {t ts rest} (hreturn : ¬t.isIdentOf "return") (hgroup : ¬t.isGroupOf .paren)
      (h : Expression (t :: ts) rest) : Effect (t :: ts) rest
  | callReturn {t ts rest} (ht : t.isIdentOf "return") (h : Expression ts rest) :
      Effect (t :: ts) rest
  | paired {cs t more left s rest} (h : Expression cs (t :: more)) (hc : t.isPunctOf ",")
      (ha : Expression more left) : Effect (.group .paren cs s :: rest) rest

/-- An identifier and `@` send the effect to another widget; nothing else begins this way. -/
inductive Sent : List Token → List Token → Prop
  | foreign {t u ts rest} (ht : t.isIdent) (hu : u.isPunctOf "@") (h : Effect ts rest) :
      Sent (t :: u :: ts) rest
  | own {ts rest} (hno : ∀ t u us, ts = t :: u :: us → t.isIdent → ¬u.isPunctOf "@")
      (h : Effect ts rest) : Sent ts rest

/-- The arrow of an event and what follows it, perhaps with a model in front. -/
inductive Arrow : List Token → List Token → Prop
  | plain {t ts rest} (ht : t.isPunctOf "=>") (h : Sent ts rest) : Arrow (t :: ts) rest
  | model {t u v ts rest} (ht : t.isIdentOf "with") (hu : u.isIdent) (hv : v.isPunctOf "=>")
      (h : Sent ts rest) : Arrow (t :: u :: v :: ts) rest

/-- An event after its signal. A model needs a parameter list before it. -/
inductive Handler : List Token → List Token → Prop
  | bare {t ts rest} (ht : t.isPunctOf "=>") (h : Sent ts rest) : Handler (t :: ts) rest
  | params {cs s ts rest} (hp : Listed Param cs) (h : Arrow ts rest) :
      Handler (.group .paren cs s :: ts) rest

/-- An entry after the name it starts with: child properties, a property, or an event. -/
inductive Binding : List Token → List Token → Prop
  | childProperties {t cs s rest} (ht : t.isPunctOf ":") (h : Listed Pair cs) :
      Binding (t :: .group .brace cs s :: rest) rest
  | property {t ts rest} (ht : t.isPunctOf ":") (hno : ∀ cs s us, ts ≠ .group .brace cs s :: us)
      (h : Expression ts rest) : Binding (t :: ts) rest
  | event {ts rest} (h : Handler ts rest) : Binding ts rest

/-! ### Widgets -/

/-- Attributes: groups in brackets that begin with an identifier, each after a `#`. -/
inductive Attributes : List Token → List Token → Prop
  | nil {ts} : Attributes ts ts
  | cons {t u cs s ts rest} (ht : t.isPunctOf "#") (hu : u.isIdent) (h : Attributes ts rest) :
      Attributes (t :: .group .bracket (u :: cs) s :: ts) rest

/-- The expressions in parentheses after the name of a widget, if there are any. -/
inductive Init : List Token → List Token → Prop
  | without {ts} : Init ts ts
  | group {cs s ts} (h : Listed Expression cs) : Init (.group .paren cs s :: ts) ts

/-- The entry at the front is a widget. In a toolkit body every qualified name begins one that does
not end in small letters, in a composed body only if the braces follow at once. -/
inductive StartsChild : WidgetSort → List Token → Prop
  | marked {sort t ts} (h : t.isPunctOf "#") : StartsChild sort (t :: ts)
  | toolkit {ns path rest} (hn : Name ns path) (hl : ¬path.endsLowercase) (hf : Follow rest) :
      StartsChild .toolkit (ns ++ rest)
  | composed {ns path cs s rest} (hn : Name ns path) (hl : ¬path.endsLowercase) :
      StartsChild .composed (ns ++ .group .brace cs s :: rest)

mutual

/-- A widget. Only one of a toolkit type needs a body. -/
inductive Child : List Token → List Token → Prop
  | body {ts ns path after cs s rest} (ha : Attributes ts (ns ++ after)) (hn : Name ns path)
      (hf : Follow after) (hi : Init after (.group .brace cs s :: rest))
      (he : Entries path.sort cs) : Child ts rest
  | bare {ts ns path after rest} (ha : Attributes ts (ns ++ after)) (hn : Name ns path)
      (hf : Follow after) (hi : Init after rest) (hs : path.sort = .composed) : Child ts rest

/-- The entries of a body, with an optional comma after each. -/
inductive Entries : WidgetSort → List Token → Prop
  | nil {sort} : Entries sort []
  | child {sort ts rest more} (hs : StartsChild sort ts) (h : Child ts rest) (hc : Comma rest more)
      (hm : Entries sort more) : Entries sort ts
  | plain {sort t ts rest more} (hs : ¬StartsChild sort (t :: ts)) (ht : t.isIdent)
      (h : Binding ts rest) (hc : Comma rest more) (hm : Entries sort more) : Entries sort (t :: ts)

end

/-- A view is one widget, with an optional comma after it. -/
def View (ts : List Token) : Prop := ∃ rest, Child ts rest ∧ Comma rest []

end Grammar

end WidgetView
