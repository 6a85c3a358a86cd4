import WidgetView.Proofs.Phrases
import WidgetView.Proofs.QualifiedNames
import WidgetView.Source

/-!
# What parsing accepts

Parsing accepts exactly the views of the grammar. A declaration is read if its attributes, its name
and what stands after the name are of the grammar, and a body entry by entry, by induction on the
nesting of the groups. The other way the induction is on the grammar: no group is ever left over
behind a widget, since nothing that may follow one begins with a group.
-/
namespace WidgetView.Parse

open Grammar

variable {stop : Nat × Nat} {ts rest : List Token}

/-! ### Declarations -/

theorem attributeOf_accepts {cs : List Token} {s : Span} :
    (∃ a, attributeOf cs s = .ok a) ↔ ∃ t us, cs = t :: us ∧ t.isIdent := by
  cases cs with
  | nil => simp [attributeOf]
  | cons t us =>
    cases ht : t.ident? with
    | none => simp [attributeOf, ht, Token.isIdent]
    | some name =>
      refine iff_of_true ?_ ⟨t, us, rfl, Token.isIdent_iff.mpr ⟨_, ht⟩⟩
      unfold attributeOf
      simp only [ht]
      split <;> exact ⟨_, rfl⟩

/-- Without a `#` there are no attributes. -/
theorem attributes_of_no_mark (h : ∀ t us, ts = t :: us → ¬t.isPunctOf "#")
    (found : Parse.Attributes) : attributes stop found ts = .ok (found, ts) := by
  cases ts with
  | nil => rfl
  | cons t us =>
    rw [attributes.eq_def]
    exact if_neg (h t us rfl)

/-- Reading attributes goes on as long as there is a `#`. -/
theorem attributes_accepts {found : Parse.Attributes} :
    (∃ attrs, attributes stop found ts = .ok (attrs, rest)) ↔
      Grammar.Attributes ts rest ∧ ∀ t us, rest = t :: us → ¬t.isPunctOf "#" := by
  constructor
  · rintro ⟨attrs, h⟩
    fun_induction attributes stop found ts with
    | case1 found =>
      obtain ⟨-, rfl⟩ := Prod.mk.inj (Except.ok.inj h)
      exact ⟨.nil, by simp⟩
    | case2 => cases h
    | case3 found t ht cs s us name v hattr ih =>
      obtain ⟨u, vs, rfl, hu⟩ := attributeOf_accepts.mp ⟨_, hattr⟩
      exact ⟨.cons ht hu (ih h).1, (ih h).2⟩
    | case4 => cases h
    | case5 found t ts ht =>
      obtain ⟨-, rfl⟩ := Prod.mk.inj (Except.ok.inj h)
      refine ⟨.nil, ?_⟩
      rintro _ _ ⟨⟩
      exact ht
  · rintro ⟨h, hend⟩
    induction h generalizing found with
    | nil => exact ⟨found, attributes_of_no_mark hend found⟩
    | @cons t u cs s ts rest ht hu _ ih =>
      obtain ⟨⟨name, v⟩, ha⟩ : ∃ a, attributeOf (u :: cs) s = .ok a :=
        attributeOf_accepts.mpr ⟨u, cs, rfl, hu⟩
      simpa [attributes, ht, ha] using ih hend

theorem init_of_initParams {es : List Expr} (h : initParams ts = .ok (es, rest)) :
    Init ts rest := by
  unfold initParams at h
  split at h
  · next cs s us =>
    cases he : exprs s.position cs with
    | error e => simp [he, Except.map] at h
    | ok es' =>
      simp only [he, Except.map, Except.ok.injEq, Prod.mk.injEq] at h
      rw [← h.2]
      exact .group (exprs_accepts.mp ⟨es', he⟩)
  · obtain ⟨-, rfl⟩ := Prod.mk.inj (Except.ok.inj h)
    exact .without

theorem initParams_of_init (h : Init ts rest) (hno : ∀ cs s us, rest ≠ .group .paren cs s :: us) :
    ∃ es, initParams ts = .ok (es, rest) := by
  cases h with
  | without =>
    refine ⟨[], ?_⟩
    unfold initParams
    split
    · next cs s us => exact absurd rfl (hno cs s us)
    · rfl
  | @group cs s _ h =>
    obtain ⟨es, hes⟩ : ∃ es, exprs s.position cs = .ok es := exprs_accepts.mpr h
    exact ⟨es, by simp [initParams, hes, Except.map]⟩

theorem sort_eq_composed_iff {path : WidgetPath} :
    path.sort = .composed ↔ path.isToolkit = false := by
  cases h : path.isToolkit <;> simp [WidgetPath.sort, h]

/-- What stands after the name of a widget: a body, or nothing for a composed type. -/
theorem shell_eq_ok {path : WidgetPath} {sh : Shell} (h : shell path stop ts = .ok sh) :
    (∃ s, Init ts (.group .brace sh.body s :: sh.rest)) ∨
      path.sort = .composed ∧ sh.body = [] ∧ Init ts sh.rest := by
  unfold shell at h
  split at h
  · cases h
  · next init r hinit =>
    split at h
    · next cs s us =>
      obtain rfl := Except.ok.inj h
      exact .inl ⟨s, init_of_initParams hinit⟩
    · split at h
      · cases h
      · next hsort =>
        obtain rfl := Except.ok.inj h
        exact .inr ⟨sort_eq_composed_iff.mpr (by simpa using hsort), rfl, init_of_initParams hinit⟩

theorem shell_of_body {path : WidgetPath} {cs : List Token} {s : Span}
    (h : Init ts (.group .brace cs s :: rest)) :
    ∃ init, shell path stop ts = .ok ⟨init, cs, s.position, rest⟩ := by
  obtain ⟨init, hinit⟩ := initParams_of_init h (by simp)
  exact ⟨init, by simp [shell, hinit]⟩

theorem shell_of_bare {path : WidgetPath} (h : Init ts rest) (hs : path.sort = .composed)
    (hno : ∀ d cs s us, rest ≠ .group d cs s :: us) :
    ∃ init, shell path stop ts = .ok ⟨init, [], stop, rest⟩ := by
  obtain ⟨init, hinit⟩ := initParams_of_init h (hno .paren)
  refine ⟨init, ?_⟩
  rw [shell, hinit]
  dsimp only
  split
  · next cs s us => exact absurd rfl (hno .brace cs s us)
  · rw [if_neg (by simp [sort_eq_composed_iff.mp hs])]

/-- A declaration is attributes and a name; the rest may still be faulty. -/
theorem declaration_eq_ok {d : Declaration} (h : declaration stop ts = .ok d) :
    ∃ ns after, Grammar.Attributes ts (ns ++ after) ∧ Name ns d.path ∧ Follow after ∧
      d.shell = shell d.path stop after := by
  unfold declaration at h
  split at h
  · cases h
  · next found r hattrs =>
    split at h
    · cases h
    · next path n hscan =>
      obtain rfl := Except.ok.inj h
      obtain ⟨ns, after, rfl, rfl, hn, hf⟩ := QualifiedName.scan?_eq_some_iff.mp hscan
      exact ⟨ns, after, (attributes_accepts.mp ⟨_, hattrs⟩).1, hn, hf, by simp⟩

/-- No attribute begins where a name begins. -/
theorem not_mark_of_name {ns after : List Token} {path : WidgetPath} (hn : Name ns path) :
    ∀ t us, ns ++ after = t :: us → ¬t.isPunctOf "#" := by
  obtain ⟨t, us, rfl, ht⟩ := hn.head
  rintro _ _ ⟨⟩ hmark
  obtain ⟨span, rfl⟩ := Token.isPunctOf_eq_true hmark
  cases ht

/-- Without attributes, a declaration is read from the name at the front, or there is none. -/
theorem declaration_of_no_mark (h : ∀ t us, ts = t :: us → ¬t.isPunctOf "#") :
    declaration stop ts =
      match QualifiedName.scan? ts with
      | none => .error (ParseError.expected stop ts .qualifiedName)
      | some (path, n) => .ok ⟨{}, path, shell path stop (ts.drop n)⟩ := by
  cases hscan : QualifiedName.scan? ts with
  | none => simp only [declaration, attributes_of_no_mark h, hscan]
  | some r => simp only [declaration, attributes_of_no_mark h, hscan]

theorem declaration_of_name {ns after : List Token} {path : WidgetPath}
    (ha : Grammar.Attributes ts (ns ++ after)) (hn : Name ns path) (hf : Follow after) :
    ∃ attrs, declaration stop ts = .ok ⟨attrs, path, shell path stop after⟩ := by
  obtain ⟨attrs, hattrs⟩ : ∃ attrs, attributes stop {} ts = .ok (attrs, ns ++ after) :=
    attributes_accepts.mpr ⟨ha, not_mark_of_name hn⟩
  have hscan := QualifiedName.scan?_eq_some_iff.mpr ⟨ns, after, rfl, rfl, hn, hf⟩
  exact ⟨attrs, by simp [declaration, hattrs, hscan]⟩

/-- A declaration whose body is accepted is a widget. -/
theorem child_of_declaration {d : Declaration} {sh : Shell} (hd : declaration stop ts = .ok d)
    (hs : d.shell = .ok sh) (he : Entries d.path.sort sh.body) : Child ts sh.rest := by
  obtain ⟨ns, after, ha, hn, hf, hshell⟩ := declaration_eq_ok hd
  rcases shell_eq_ok (hshell.symm.trans hs) with ⟨s, hi⟩ | ⟨hsort, -, hi⟩
  · exact .body ha hn hf hi he
  · exact .bare ha hn hf hi hsort

/-! ### The start of an entry -/

theorem scanWidget?_eq_some_iff {path : WidgetPath} {n : Nat} :
    QualifiedName.scanWidget? ts = some (path, n) ↔
      QualifiedName.scan? ts = some (path, n) ∧ ¬path.endsLowercase := by
  unfold QualifiedName.scanWidget?
  cases hscan : QualifiedName.scan? ts with
  | none => simp
  | some r =>
    obtain ⟨path', n'⟩ := r
    simp only [Option.some.injEq, Prod.mk.injEq]
    constructor
    · intro h
      split at h
      · cases h
      · next hl =>
        obtain ⟨rfl, rfl⟩ := Prod.mk.inj (Option.some.inj h)
        exact ⟨⟨rfl, rfl⟩, hl⟩
    · rintro ⟨⟨rfl, rfl⟩, hl⟩
      exact if_neg hl

/-- A toolkit body looks no further than the name, a composed one at the group behind it. -/
theorem startsChild_eq (sort : WidgetSort) :
    startsChild sort ts ↔ (∃ t us, ts = t :: us ∧ t.isPunctOf "#") ∨
      ∃ path n, QualifiedName.scanWidget? ts = some (path, n) ∧
        (sort = .toolkit ∨ ∃ cs s us, ts.drop n = .group .brace cs s :: us) := by
  rw [startsChild.eq_def, Bool.or_eq_true_iff]
  refine or_congr ?_ ?_
  · cases ts <;> simp
  · cases hscan : QualifiedName.scanWidget? ts with
    | none => simp
    | some r =>
      obtain ⟨path, n⟩ := r
      cases sort with
      | toolkit => simp
      | composed =>
        simp only [Option.some.injEq, Prod.mk.injEq, reduceCtorEq, false_or]
        constructor
        · intro h
          cases hdrop : ts.drop n with
          | nil => simp [hdrop] at h
          | cons t us =>
            rw [hdrop] at h
            obtain ⟨cs, s, rfl⟩ := Token.isGroupOf_eq_true (t := t) (d := .brace) h
            exact ⟨path, n, ⟨rfl, rfl⟩, cs, s, us, hdrop⟩
        · rintro ⟨_, _, ⟨rfl, rfl⟩, cs, s, us, hdrop⟩
          rw [hdrop]
          rfl

theorem startsChild_iff {sort : WidgetSort} : startsChild sort ts ↔ StartsChild sort ts := by
  rw [startsChild_eq]
  constructor
  · rintro (⟨t, us, rfl, ht⟩ | ⟨path, n, hscan, hsort⟩)
    · exact .marked ht
    · obtain ⟨hscan, hl⟩ := scanWidget?_eq_some_iff.mp hscan
      obtain ⟨ns, after, rfl, rfl, hn, hf⟩ := QualifiedName.scan?_eq_some_iff.mp hscan
      rcases hsort with rfl | ⟨cs, s, us, hdrop⟩
      · exact .toolkit hn hl hf
      · rw [List.drop_left] at hdrop
        obtain rfl := hdrop
        cases sort with
        | toolkit => exact .toolkit hn hl hf
        | composed => exact .composed hn hl
  · intro h
    cases h with
    | marked ht => exact .inl ⟨_, _, rfl, ht⟩
    | toolkit hn hl hf =>
      refine .inr ⟨_, _, scanWidget?_eq_some_iff.mpr ⟨QualifiedName.scan?_eq_some_iff.mpr
        ⟨_, _, rfl, rfl, hn, hf⟩, hl⟩, .inl rfl⟩
    | composed hn hl =>
      refine .inr ⟨_, _, scanWidget?_eq_some_iff.mpr ⟨QualifiedName.scan?_eq_some_iff.mpr
        ⟨_, _, rfl, rfl, hn, .group⟩, hl⟩, .inr ⟨_, _, _, List.drop_left⟩⟩

/-! ### Bodies -/

theorem noteParent_ok (w : Widget) (st : Session) : ∃ st', noteParent w st = .ok () st' := ⟨_, rfl⟩

/-- A declaration is accepted with the entries of its body. -/
theorem declared_accepts {d : Declaration} {sh : Shell} (hs : d.shell = .ok sh) {st : Session} :
    (∃ v st', declared d st = .ok v st') ↔
      ∃ found st', entries d.path.sort sh.bodyStop sh.body
        { st with names := (st.names.next d.path).2 } = .ok found st' := by
  have hbody : d.body = sh.body := by simp [Declaration.body, hs]
  constructor
  · rintro ⟨v, st', h⟩
    obtain ⟨sh', found, st₁, hs', hfound, -, -⟩ := declared_eq_ok h
    obtain rfl := Except.ok.inj (hs.symm.trans hs')
    rw [hbody] at hfound
    exact ⟨found, st₁, hfound⟩
  · rintro ⟨found, st₁, h⟩
    rw [← hbody] at h
    let view := d.view (st.names.next d.path).1 sh.init found
    obtain ⟨st₂, hnote⟩ := noteParent_ok view.value st₁
    refine ⟨view, st₂, ?_⟩
    rw [declared]
    refine Step.bind_eq_ok.mpr ⟨_, _, drawName_eq d.path st, ?_⟩
    refine Step.bind_eq_ok.mpr ⟨sh, _, Step.ofExcept_eq_ok.mpr ⟨hs, rfl⟩, ?_⟩
    refine Step.bind_eq_ok.mpr ⟨found, st₁, h, ?_⟩
    exact Step.bind_eq_ok.mpr ⟨(), st₂, hnote, Step.pure_eq_ok.mpr ⟨rfl, rfl⟩⟩

/-- An entry begins with an identifier or with `#`. -/
theorem head_of_entries {sort : WidgetSort} {t : Token} {us : List Token}
    (h : Entries sort (t :: us)) : t.isIdent ∨ t.isPunctOf "#" := by
  have hname : ∀ {ns path rest}, Name ns path → t :: us = ns ++ rest → t.isIdent := by
    intro ns path rest hn heq
    obtain ⟨v, vs, rfl, hv⟩ := hn.head
    obtain ⟨rfl, -⟩ := List.cons.inj heq
    exact hv
  generalize heq : t :: us = ts at h
  cases h with
  | nil => cases heq
  | child hs _ _ _ =>
    cases hs with
    | marked ht =>
      obtain ⟨rfl, rfl⟩ := List.cons.inj heq
      exact .inr ht
    | toolkit hn _ _ => exact .inl (hname hn heq)
    | composed hn _ => exact .inl (hname hn heq)
  | plain _ ht _ _ _ =>
    obtain ⟨rfl, rfl⟩ := List.cons.inj heq
    exact .inl ht

theorem not_comma_of_entries {sort : WidgetSort} {t : Token} {us : List Token}
    (h : Entries sort (t :: us)) : ¬t.isPunctOf "," := by
  intro hc
  rcases head_of_entries h with ht | ht
  · obtain ⟨span, rfl⟩ := Token.isPunctOf_eq_true hc
    cases ht
  · exact absurd (Token.isPunctOf_unique hc ht) (by decide)

/-- No group is left over between entries. -/
theorem not_group_of_entries {sort : WidgetSort} {more : List Token} (hc : Comma rest more)
    (h : Entries sort more) : ∀ d cs s us, rest ≠ .group d cs s :: us := by
  rintro d cs s us rfl
  cases hc with
  | comma hc => cases hc
  | without =>
    rcases head_of_entries h with ht | ht
    · cases ht
    · cases ht

/-- The comma behind an entry is the one that is dropped. -/
theorem skipComma_of_entries {sort : WidgetSort} {more : List Token} (hc : Comma rest more)
    (h : Entries sort more) : skipComma rest = more := by
  cases hc with
  | comma hc => exact skipComma_comma hc
  | without =>
    cases rest with
    | nil => rfl
    | cons t us => exact if_neg (not_comma_of_entries h)

theorem comma_skipComma (ts : List Token) : Comma ts (skipComma ts) := by
  cases ts with
  | nil => exact .without
  | cons t ts =>
    rw [skipComma]
    split
    · next h => exact .comma h
    · exact .without

mutual

/-- The body of a declaration that is accepted is one of the grammar. -/
theorem body_of_accepted (d : Declaration) (sh : Shell) (hs : d.shell = .ok sh) (st st' : Session)
    (v : WidgetView.View) (h : declared d st = .ok v st') : Entries d.path.sort sh.body := by
  obtain ⟨found, st₁, hfound⟩ := (declared_accepts hs).mp ⟨v, st', h⟩
  exact entries_of_accepted d.path.sort sh.bodyStop sh.body _ st₁ found hfound
termination_by 2 * sizeOf sh.body + 1

theorem entries_of_accepted (sort : WidgetSort) (stop : Nat × Nat) (ts : List Token)
    (st st' : Session) (found : List Entry) (h : entries sort stop ts st = .ok found st') :
    Entries sort ts := by
  match ts, h with
  | [], _ => exact .nil
  | t :: ts, h =>
    rcases entries_cons_eq_ok h with ⟨hc, d, v, st₁, more, hd, hv, hm, -⟩ |
      ⟨hc, name, e, rest, more, hi, hp, hm, -⟩
    · obtain ⟨sh, found', st₂, hs, -, -, -⟩ := declared_eq_ok hv
      have hbody := body_of_accepted d sh hs st st₁ v hv
      have hmore := entries_of_accepted sort stop (skipComma d.rest) st₁ st' more hm
      have hrest : d.rest = sh.rest := by simp [Declaration.rest, hs]
      rw [hrest] at hmore
      exact .child (startsChild_iff.mp hc) (child_of_declaration hd hs hbody) (comma_skipComma _)
        hmore
    · have hmore := entries_of_accepted sort stop (skipComma rest) st st' more hm
      have hno : ¬StartsChild sort (t :: ts) := by simp [← startsChild_iff, hc]
      exact .plain hno (Token.isIdent_iff.mpr ⟨_, hi⟩) (plainEntry_accepts.mp ⟨e, hp⟩)
        (comma_skipComma _) hmore
termination_by 2 * sizeOf ts
decreasing_by
  · have := (declaration_skipComma_within ‹_›).1
    rw [show d.body = sh.body by simp [Declaration.body, hs]] at this
    omega
  · have := (declaration_skipComma_within ‹_›).2
    omega
  · have := plainEntry_skipComma_within ‹_› t
    omega

end

/-- The parser reads a widget, with the tokens `rest` behind it. -/
def ReadsChild (ts rest : List Token) : Prop :=
  ∀ stop, ∃ d, declaration stop ts = .ok d ∧ d.rest = rest ∧
    ∀ st, ∃ v st', declared d st = .ok v st'

/-- The parser reads the entries of a body. -/
def ReadsEntries (sort : WidgetSort) (ts : List Token) : Prop :=
  ∀ stop st, ∃ found st', entries sort stop ts st = .ok found st'

theorem ReadsEntries.nil {sort : WidgetSort} : ReadsEntries sort [] := by
  intro stop st
  exact ⟨[], st, by rw [entries]; rfl⟩

theorem ReadsChild.of_shell {ns after cs : List Token} {path : WidgetPath}
    (ha : Grammar.Attributes ts (ns ++ after)) (hn : Name ns path) (hf : Follow after)
    (hshell : ∀ stop, ∃ init bodyStop, shell path stop after = .ok ⟨init, cs, bodyStop, rest⟩)
    (he : ReadsEntries path.sort cs) : ReadsChild ts rest := by
  intro stop
  obtain ⟨attrs, hd⟩ : ∃ attrs, declaration stop ts = .ok ⟨attrs, path, shell path stop after⟩ :=
    declaration_of_name ha hn hf
  obtain ⟨init, bodyStop, hs⟩ := hshell stop
  refine ⟨_, hd, by simp [Declaration.rest, hs], ?_⟩
  intro st
  exact (declared_accepts hs).mpr (he bodyStop _)

theorem ReadsEntries.child {sort : WidgetSort} {more : List Token} (hs : StartsChild sort ts)
    (h : ReadsChild ts rest) (hskip : skipComma rest = more) (hm : ReadsEntries sort more) :
    ReadsEntries sort ts := by
  intro stop st
  obtain ⟨d, hd, hrest, hread⟩ := h stop
  obtain ⟨v, st₁, hv⟩ := hread st
  obtain ⟨found, st₂, hfound⟩ := hm stop st₁
  cases ts with
  | nil => cases hd
  | cons t ts =>
    refine ⟨.child v :: found, st₂, ?_⟩
    rw [entries_child (startsChild_iff.mpr hs), hd]
    refine Step.bind_eq_ok.mpr ⟨v, st₁, hv, ?_⟩
    refine Step.bind_eq_ok.mpr ⟨found, st₂, ?_, Step.pure_eq_ok.mpr ⟨rfl, rfl⟩⟩
    rw [hrest, hskip]
    exact hfound

theorem ReadsEntries.plain {sort : WidgetSort} {t : Token} {more : List Token}
    (hs : ¬StartsChild sort (t :: ts)) (ht : t.isIdent) (h : Binding ts rest)
    (hskip : skipComma rest = more) (hm : ReadsEntries sort more) :
    ReadsEntries sort (t :: ts) := by
  intro stop st
  obtain ⟨name, hname⟩ := Token.isIdent_iff.mp ht
  obtain ⟨e, he⟩ : ∃ e, plainEntry stop sort name t.span.position ts = .ok (e, rest) :=
    plainEntry_accepts.mpr h
  obtain ⟨found, st₁, hfound⟩ := hm stop st
  have hplain : startsChild sort (t :: ts) = false := by simpa [← startsChild_iff] using hs
  refine ⟨e :: found, st₁, ?_⟩
  rw [entries_plain hplain, hname]
  simp only [he]
  refine Step.bind_eq_ok.mpr ⟨found, st₁, ?_, Step.pure_eq_ok.mpr ⟨rfl, rfl⟩⟩
  rw [hskip]
  exact hfound

/-- A widget of the grammar is read, unless a group is left over behind it. -/
theorem readsChild_of_child (h : Child ts rest) (hno : ∀ d cs s us, rest ≠ .group d cs s :: us) :
    ReadsChild ts rest := by
  revert hno
  -- widgets and entries are derived together; a body brings its own end, where nothing is left over
  refine @Child.rec
    (fun ts rest _ => (∀ d cs s us, rest ≠ .group d cs s :: us) → ReadsChild ts rest)
    (fun sort ts _ => ReadsEntries sort ts) ?body ?bare ?nil ?child ?plain ts rest h
  case body =>
    intro ts ns path after cs s rest ha hn hf hi _ ih _
    refine .of_shell ha hn hf (fun stop => ?_) ih
    obtain ⟨init, hs⟩ : ∃ init, shell path stop after = .ok ⟨init, cs, s.position, rest⟩ :=
      shell_of_body hi
    exact ⟨init, _, hs⟩
  case bare =>
    intro ts ns path after rest ha hn hf hi hs hno
    refine .of_shell ha hn hf (fun stop => ?_) .nil
    obtain ⟨init, hs⟩ : ∃ init, shell path stop after = .ok ⟨init, [], stop, rest⟩ :=
      shell_of_bare hi hs hno
    exact ⟨init, _, hs⟩
  case nil =>
    intro sort
    exact .nil
  case child =>
    intro sort ts rest more hs _ hc hm ihchild ihmore
    exact .child hs (ihchild (not_group_of_entries hc hm)) (skipComma_of_entries hc hm) ihmore
  case plain =>
    intro sort t ts rest more hs ht h hc hm ih
    exact .plain hs ht h (skipComma_of_entries hc hm) ih

/-- Nothing stands behind a view that is read but an optional comma. -/
theorem root_eq_ok_iff {d : Declaration} (hd : declaration (endOf ts) ts = .ok d) {st st' : Session}
    {v : WidgetView.View} :
    root ts st = .ok v st' ↔ declared d st = .ok v st' ∧ skipComma d.rest = [] := by
  simp only [root, hd]
  rw [Step.bind_eq_ok]
  constructor
  · rintro ⟨v', st₁, hv, h⟩
    cases hrest : skipComma d.rest with
    | nil =>
      rw [hrest] at h
      obtain ⟨rfl, rfl⟩ := Step.pure_eq_ok.mp h
      exact ⟨hv, rfl⟩
    | cons t us => exact absurd (by simpa only [hrest] using h) Step.throw_eq_ok
  · rintro ⟨hv, hrest⟩
    refine ⟨v, st', hv, ?_⟩
    rw [hrest]
    exact Step.pure_eq_ok.mpr ⟨rfl, rfl⟩

theorem root_accepts {st : Session} : (∃ v st', root ts st = .ok v st') ↔ Grammar.View ts := by
  constructor
  · rintro ⟨v, st', h⟩
    obtain ⟨d, hd, hv⟩ := root_eq_ok h
    obtain ⟨sh, -, -, hs, -, -, -⟩ := declared_eq_ok hv
    have hrest : skipComma sh.rest = [] := by
      have hskip := ((root_eq_ok_iff hd).mp h).2
      simpa [Declaration.rest, hs] using hskip
    refine ⟨sh.rest, child_of_declaration hd hs (body_of_accepted d sh hs st st' v hv), ?_⟩
    rw [← hrest]
    exact comma_skipComma sh.rest
  · rintro ⟨rest, h, hc⟩
    have hnil : Entries .toolkit [] := .nil
    obtain ⟨d, hd, rfl, hread⟩ := readsChild_of_child h (not_group_of_entries hc hnil) (endOf ts)
    obtain ⟨v, st', hv⟩ := hread st
    exact ⟨v, st', (root_eq_ok_iff hd).mpr ⟨hv, skipComma_of_entries hc hnil⟩⟩

end WidgetView.Parse

namespace WidgetView

/-- Tokens give a view exactly if they are, or name a file that holds, a view of the grammar. The
names that were drawn before have no say in this. -/
theorem view_accepts_iff (fs : FileSystem) (base : Pathname) (ts : List Token) (st : Session) :
    (∃ v, (Source.view fs base ts st).1 = .ok v) ↔
      ∃ us, Source.follow fs base ts = .ok us ∧ Grammar.View us := by
  cases hfollow : Source.follow fs base ts with
  | error e => simp [Source.view, hfollow]
  | ok us =>
    simp only [Source.view, hfollow, Except.ok.injEq, exists_eq_left']
    have hroot : (∃ v st', Parse.root us st = .ok v st') ↔ Grammar.View us := Parse.root_accepts
    rw [← hroot]
    cases Parse.root us st <;> simp

end WidgetView
