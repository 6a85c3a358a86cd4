import WidgetView.Proofs.Acceptance
import WidgetView.Proofs.Standing

/-!
# Where parse errors are

Where parse errors are. An error is at one of the tokens that were read, and has the position of the
token; or some tokens end too soon: all of them were read, and what is wanted after them is missing.
Then the error has the position of the group whose contents they are, or the position that the whole
run was given for its end.
-/
namespace WidgetView

/-! ### Missing parts -/

/-- The model of an event, in front of its arrow. -/
inductive Grammar.Model : List Token → Prop where
  | without : Model []
  | model {t u : Token} (ht : t.isIdentOf "with") (hu : u.isIdent) : Model [t, u]

/-- The target of an event, behind its arrow. -/
inductive Grammar.Target : List Token → Prop where
  | own : Target []
  | foreign {t u : Token} (ht : t.isIdent) (hu : u.isPunctOf "@") : Target [t, u]

/-- What may be wanted next after some tokens. -/
inductive Wanted.After : Wanted → List Token → Prop where
  | attributeBracket {t : Token} (h : t.isPunctOf "#") : After .attributeBracket [t]
  | qualifiedName {t : Token} {ts : List Token} (h : Grammar.Attributes (t :: ts) []) :
      After .qualifiedName (t :: ts)
  | body {ns ts : List Token} {path : WidgetPath} (hn : Grammar.Name ns path)
      (hi : Grammar.Init ts [])
      (ht : path.isToolkit) : After (.body path.text) (ns ++ ts)
  | entry {t : Token} {name : String} (h : t.ident? = some name) (sort : WidgetSort) :
      After (Parse.afterEntryName sort name) [t]
  | value {t u : Token} {name : String} (h : t.ident? = some name) (hu : u.isPunctOf ":") :
      After (.value name) [t, u]
  | childProperty {t : Token} {name : String} (h : t.ident? = some name) :
      After (.childProperty name) [t]
  | childValue {t u : Token} {name : String} (h : t.ident? = some name) (hu : u.isPunctOf ":") :
      After (.childValue name) [t, u]
  | arrow {t : Token} {signal : String} {cs ts : List Token} {s : Span} (h : t.ident? = some signal)
      (hm : Grammar.Model ts) : After (.arrow signal) (t :: .group .paren cs s :: ts)
  | effect {t : Token} {ts : List Token} (h : t.isPunctOf "=>") (ht : Grammar.Target ts) :
    After .effect (t :: ts)
  | returned {t : Token} (h : t.isIdentOf "return") : After .returned [t]

/-- What may be wanted where some tokens are all there is. -/
inductive Wanted.Beside : Wanted → List Token → Prop where
  | view : Beside .qualifiedName []
  | message : Beside .message []
  | answerComma {ts : List Token} (h : Grammar.Expression ts []) : Beside .answerComma ts
  | answer {ts : List Token} {t : Token} (h : Grammar.Expression ts [t]) (ht : t.isPunctOf ",") :
      Beside .answer ts

/-- A list of tokens ends where something is wanted. -/
def Wanted.Missing (wanted : Wanted) (ts : List Token) : Prop :=
  wanted.Beside ts ∨ ∃ us, us <:+ ts ∧ wanted.After us

/-! ### Errors about a run of tokens -/

/-- An error about a run of tokens that ends at `stop`: it is about one of the tokens, or there are
no more of them, or it is about the contents of a group, which are a run that ends at the position
of the group. -/
inductive ParseError.Met : List Token → Nat × Nat → ParseError → Prop where
  | found {ts : List Token} {stop : Nat × Nat} {fault : ParseFault} {t : Token} (h : t ∈ ts) :
      Met ts stop (atToken fault t)
  | ended {ts us : List Token} {stop : Nat × Nat} {wanted : Wanted} (hs : us <:+ ts)
      (h : wanted.After us) : Met ts stop (atStop (.expected wanted none) stop)
  | missing {ts cs : List Token} {stop : Nat × Nat} {d : Delimiter} {s : Span} {wanted : Wanted}
      (hg : .group d cs s ∈ ts) (h : wanted.Beside cs) :
      Met ts stop (atStop (.expected wanted none) s.position)
  | inside {ts cs : List Token} {stop : Nat × Nat} {d : Delimiter} {s : Span} {e : ParseError}
      (hg : .group d cs s ∈ ts) (h : Met cs s.position e) : Met ts stop e

namespace ParseError.Met

variable {ts us : List Token} {stop : Nat × Nat} {e : ParseError}

theorem of_suffix (h : e.Met us stop) (hs : us <:+ ts) : e.Met ts stop := by
  cases h with
  | found h => exact .found (hs.subset h)
  | ended hs' h => exact .ended (hs'.trans hs) h
  | missing hg h => exact .missing (hs.subset hg) h
  | inside hg h => exact .inside (hs.subset hg) h

/-- What is wanted where a token stands is an error at the token. -/
theorem expected (stop : Nat × Nat) (t : Token) (ts : List Token) (wanted : Wanted) :
    (ParseError.expected stop (t :: ts) wanted).Met (t :: ts) stop :=
  .found List.mem_cons_self

end ParseError.Met

namespace Parse

variable {ts rest : List Token} {stop : Nat × Nat} {e : ParseError}

/-! ### Values and events -/

/-- A value is not there, or something stands in its place. -/
theorem value_met {wanted : Wanted} (h : value stop wanted ts = .error e) :
    (ts = [] ∧ e = ParseError.atStop (.expected wanted none) stop) ∨ e.Met ts stop := by
  unfold value at h
  split at h
  · obtain rfl := Except.error.inj h
    cases ts with
    | nil => exact .inl ⟨rfl, rfl⟩
    | cons t ts => exact .inr (.expected stop t ts wanted)
  · cases h

theorem exprs_met (h : exprs stop ts = .error e) : e.Met ts stop := by
  fun_induction exprs stop ts with
  | case1 => cases h
  | case2 ts hne e' hv =>
    obtain rfl := Except.error.inj h
    exact (value_met hv).resolve_left fun hnil => hne hnil.1
  | case3 ts _ e' rest hv err herr ih =>
    obtain rfl := Except.error.inj h
    exact (ih herr).of_suffix ((skipComma_suffix rest).trans (value_suffix hv))
  | case4 => cases h

theorem params_met (h : params stop ts = .error e) : e.Met ts stop := by
  fun_induction params stop ts with
  | case1 => cases h
  | case2 =>
    obtain rfl := Except.error.inj h
    exact .expected stop _ _ _
  | case3 => cases h
  | case4 t name _ u us _ err herr ih =>
    obtain rfl := Except.error.inj h
    exact (ih herr).of_suffix ((List.suffix_cons u us).trans (List.suffix_cons t _))
  | case5 => cases h
  | case6 t name _ u us =>
    obtain rfl := Except.error.inj h
    exact (ParseError.Met.expected stop u us _).of_suffix (List.suffix_cons t _)

theorem childProperties_met (h : childProperties stop ts = .error e) : e.Met ts stop := by
  fun_induction childProperties stop ts with
  | case1 => cases h
  | case2 =>
    obtain rfl := Except.error.inj h
    exact .expected stop _ _ _
  | case3 t name hname =>
    obtain rfl := Except.error.inj h
    exact .ended List.suffix_rfl (.childProperty hname)
  | case4 t name u us hname hu err hv =>
    obtain rfl := Except.error.inj h
    rcases value_met hv with ⟨rfl, rfl⟩ | hmet
    · exact .ended List.suffix_rfl (.childValue hname hu)
    · exact hmet.of_suffix ((List.suffix_cons u us).trans (List.suffix_cons t _))
  | case5 t name u us _ _ err rest hv err' herr ih =>
    obtain rfl := Except.error.inj h
    refine (ih herr).of_suffix (((skipComma_suffix rest).trans (value_suffix hv)).trans ?_)
    exact (List.suffix_cons u us).trans (List.suffix_cons t _)
  | case6 => cases h
  | case7 t name u us =>
    obtain rfl := Except.error.inj h
    exact (ParseError.Met.expected stop u us _).of_suffix (List.suffix_cons t _)

/-- A message and an answer in parentheses. -/
theorem effect_group_met {cs : List Token} {s : Span}
    (h : effect stop (.group .paren cs s :: rest) = .error e) :
    e.Met (.group .paren cs s :: rest) stop := by
  have hg : Token.group .paren cs s ∈ Token.group .paren cs s :: rest := List.mem_cons_self
  simp only [effect] at h
  split at h
  · next err herr =>
    obtain rfl := Except.error.inj h
    rcases value_met herr with ⟨rfl, rfl⟩ | hmet
    · exact .missing hg .message
    · exact .inside hg hmet
  · next message r hmessage =>
    have hexpression : Grammar.Expression cs r := value_accepts.mp ⟨message, hmessage⟩
    cases r with
    | nil =>
      obtain rfl := Except.error.inj h
      exact .missing hg (.answerComma hexpression)
    | cons t more =>
      split at h
      · next hcomma =>
        split at h
        · next err herr =>
          obtain rfl := Except.error.inj h
          rcases value_met herr with ⟨hmore, rfl⟩ | hmet
          · obtain rfl : more = [] := hmore
            exact .missing hg (.answer hexpression hcomma)
          · exact .inside hg
              (hmet.of_suffix ((List.suffix_cons t more).trans (value_suffix hmessage)))
        · cases h
      · obtain rfl := Except.error.inj h
        exact .inside hg ((ParseError.Met.expected _ t more _).of_suffix (value_suffix hmessage))

/-- An effect is not there, or it is faulty. -/
theorem effect_met (h : effect stop ts = .error e) :
    (ts = [] ∧ e = ParseError.atStop (.expected .effect none) stop) ∨ e.Met ts stop := by
  unfold effect at h
  split at h
  · next cs s rest => exact .inr (effect_group_met (by rw [effect]; exact h))
  · next t rest _ =>
    right
    split at h
    · next hreturn =>
      rcases value_met (map_eq_error h) with ⟨rfl, rfl⟩ | hmet
      · exact .ended List.suffix_rfl (.returned hreturn)
      · exact hmet.of_suffix (List.suffix_cons t rest)
    · exact (value_met (map_eq_error h)).resolve_left (by simp)
  · exact .inl ⟨rfl, (Except.error.inj h).symm⟩

theorem eventModel_eq (ts : List Token) :
    ∃ model, ts = model ++ (eventModel ts).2 ∧ Grammar.Model model := by
  unfold eventModel
  split
  · next t u rest =>
    split
    · next ht hu => exact ⟨[t, u], rfl, .model ht (Token.isIdent_iff.mpr ⟨_, hu⟩)⟩
    · exact ⟨[], rfl, .without⟩
  · exact ⟨[], rfl, .without⟩

theorem eventTarget_eq (ts : List Token) :
    ∃ target, ts = target ++ (eventTarget ts).2 ∧ Grammar.Target target := by
  unfold eventTarget
  split
  · next t u rest =>
    split
    · next ht hu => exact ⟨[t, u], rfl, .foreign (Token.isIdent_iff.mpr ⟨_, ht⟩) hu⟩
    · exact ⟨[], rfl, .own⟩
  · exact ⟨[], rfl, .own⟩

/-- The arrow of an event and its effect, behind the arrow's own token. -/
theorem sent_met {t : Token} (ht : t.isPunctOf "=>")
    (h : effect stop (eventTarget ts).2 = .error e) : e.Met (t :: ts) stop := by
  obtain ⟨target, hts, htarget⟩ := eventTarget_eq ts
  rcases effect_met h with ⟨hnil, rfl⟩ | hmet
  · rw [hnil, List.append_nil] at hts
    rw [hts]
    exact .ended List.suffix_rfl (.effect ht htarget)
  · exact hmet.of_suffix ((eventTarget_suffix ts).trans (List.suffix_cons t ts))

theorem eventParams_met {sort : WidgetSort} (h : eventParams sort ts = .error e) :
    e.Met ts stop := by
  unfold eventParams at h
  split at h
  · exact .inside List.mem_cons_self (params_met (map_eq_error h))
  · cases h

/-- Parameters are passed as a group; where the arrow stands at once there are none. -/
theorem eventParams_eq {sort : WidgetSort} {names : List String} {u : Token}
    (hu : u.isGroupOf .paren || u.isPunctOf "=>")
    (h : eventParams sort (u :: ts) = .ok (names, rest)) :
    (∃ cs s, u = .group .paren cs s ∧ rest = ts) ∨ u.isPunctOf "=>" ∧ rest = u :: ts := by
  unfold eventParams at h
  split at h
  · next cs s us heq =>
    obtain ⟨rfl, rfl⟩ := List.cons.inj heq
    obtain ⟨names, -, heq⟩ := map_eq_ok h
    exact .inl ⟨cs, s, rfl, (Prod.mk.inj heq).2.symm⟩
  · next hno =>
    obtain ⟨-, rfl⟩ := Prod.mk.inj (Except.ok.inj h)
    refine .inr ⟨(Bool.or_eq_true_iff.mp hu).resolve_left fun hgroup => ?_, rfl⟩
    obtain ⟨cs, s, rfl⟩ := Token.isGroupOf_eq_true hgroup
    exact hno cs s ts rfl

/-- An event begins behind its signal with parameters or with its arrow. -/
theorem event_met {sort : WidgetSort} {signal : String} {place : Nat × Nat} {t u : Token}
    (hsignal : t.ident? = some signal) (hu : u.isGroupOf .paren || u.isPunctOf "=>")
    (h : event stop sort signal place (u :: ts) = .error e) : e.Met (t :: u :: ts) stop := by
  unfold event at h
  split at h
  · next err herr =>
    obtain rfl := Except.error.inj h
    exact (eventParams_met herr).of_suffix (List.suffix_cons t _)
  · next names r hparams =>
    have hsuffix :=
      ((eventModel_suffix r).trans (eventParams_suffix hparams)).trans (List.suffix_cons t _)
    split at h
    · next hnil =>
      obtain rfl := Except.error.inj h
      obtain ⟨model, hr, hmodel⟩ := eventModel_eq r
      rw [hnil, List.append_nil] at hr
      subst hr
      rcases eventParams_eq hu hparams with ⟨cs, s, rfl, rfl⟩ | ⟨harrow, rfl⟩
      · exact .ended List.suffix_rfl (.arrow hsignal hmodel)
      · -- a model begins with an identifier, not with the arrow
        cases hmodel with
        | model ht _ =>
          obtain ⟨span, rfl⟩ := Token.isPunctOf_eq_true harrow
          cases ht
    · next v us hmore =>
      rw [hmore] at hsuffix
      split at h
      · next hv =>
        split at h
        · next err herr =>
          obtain rfl := Except.error.inj h
          exact (sent_met hv herr).of_suffix hsuffix
        · cases h
      · obtain rfl := Except.error.inj h
        exact (ParseError.Met.expected stop v us _).of_suffix hsuffix

theorem plainEntry_met {sort : WidgetSort} {name : String} {place : Nat × Nat} {t : Token}
    (hname : t.ident? = some name) (h : plainEntry stop sort name place ts = .error e) :
    e.Met (t :: ts) stop := by
  unfold plainEntry at h
  split at h
  · obtain rfl := Except.error.inj h
    exact .ended List.suffix_rfl (.entry hname sort)
  · next u r =>
    split at h
    · next hu =>
      split at h
      · next cs s r =>
        have hg : Token.group .brace cs s ∈ t :: u :: .group .brace cs s :: r := by simp
        exact .inside hg (childProperties_met (map_eq_error h))
      · rcases value_met (map_eq_error h) with ⟨rfl, rfl⟩ | hmet
        · exact .ended List.suffix_rfl (.value hname hu)
        · exact hmet.of_suffix ((List.suffix_cons u r).trans (List.suffix_cons t _))
    · split at h
      · next hu => exact event_met hname hu (map_eq_error h)
      · obtain rfl := Except.error.inj h
        exact (ParseError.Met.expected stop u r _).of_suffix (List.suffix_cons t _)

/-! ### Declarations -/

theorem attributeOf_met {inner : List Token} {s : Span} (hg : .group .bracket inner s ∈ ts)
    (h : attributeOf inner s = .error e) : e.Met ts stop := by
  unfold attributeOf at h
  split at h
  · obtain rfl := Except.error.inj h
    exact .found hg
  · next t more =>
    split at h
    · obtain rfl := Except.error.inj h
      exact .inside hg (.found List.mem_cons_self)
    · split at h <;> cases h

theorem attributes_met {found : Attributes} (h : attributes stop found ts = .error e) :
    e.Met ts stop := by
  fun_induction attributes stop found ts with
  | case1 => cases h
  | case2 found t ht inner s rest err herr =>
    obtain rfl := Except.error.inj h
    exact attributeOf_met (List.mem_cons_of_mem _ List.mem_cons_self) herr
  | case3 found t ht inner s rest name v hv ih =>
    exact (ih h).of_suffix ((List.suffix_cons _ rest).trans (List.suffix_cons t _))
  | case4 found t us ht _ =>
    obtain rfl := Except.error.inj h
    cases us with
    | nil => exact .ended List.suffix_rfl (.attributeBracket ht)
    | cons u us => exact (ParseError.Met.expected stop u us _).of_suffix (List.suffix_cons t _)
  | case5 => cases h

/-- A declaration is not there at all, or it is faulty up to its name. -/
theorem declaration_met (h : declaration stop ts = .error e) :
    (ts = [] ∧ e = ParseError.atStop (.expected .qualifiedName none) stop) ∨ e.Met ts stop := by
  unfold declaration at h
  split at h
  · next err herr =>
    obtain rfl := Except.error.inj h
    exact .inr (attributes_met herr)
  · next found r hattrs =>
    split at h
    · obtain rfl := Except.error.inj h
      have hread := (attributes_accepts.mp ⟨found, hattrs⟩).1
      cases r with
      | nil =>
        cases ts with
        | nil => exact .inl ⟨rfl, rfl⟩
        | cons t ts => exact .inr (.ended List.suffix_rfl (.qualifiedName hread))
      | cons t r =>
        exact .inr ((ParseError.Met.expected stop t r _).of_suffix (attributes_suffix hattrs))
    · cases h

theorem shell_met {ns : List Token} {path : WidgetPath} (hn : Grammar.Name ns path)
    (h : shell path stop ts = .error e) : e.Met (ns ++ ts) stop := by
  have hsuffix : ts <:+ ns ++ ts := List.suffix_append ns ts
  unfold shell at h
  split at h
  · next err herr =>
    obtain rfl := Except.error.inj h
    unfold initParams at herr
    split at herr
    · exact .inside (hsuffix.subset List.mem_cons_self) (exprs_met (map_eq_error herr))
    · cases herr
  · next init r hinit =>
    split at h
    · cases h
    · split at h
      · next htoolkit =>
        obtain rfl := Except.error.inj h
        cases r with
        | nil => exact .ended List.suffix_rfl (.body hn (init_of_initParams hinit) htoolkit)
        | cons t r =>
          exact (ParseError.Met.expected stop t r _).of_suffix
            ((initParams_suffix hinit).trans hsuffix)
      · cases h

/-- An error about the body of a declaration is one about the tokens of the declaration. -/
theorem shell_body_met {path : WidgetPath} {sh : Shell} (hs : shell path stop ts = .ok sh)
    (h : e.Met sh.body sh.bodyStop) : e.Met ts stop := by
  unfold shell at hs
  split at hs
  · cases hs
  · next init r hinit =>
    split at hs
    · obtain rfl := Except.ok.inj hs
      exact .inside ((initParams_suffix hinit).subset List.mem_cons_self) h
    · split at hs
      · cases hs
      · obtain rfl := Except.ok.inj hs
        exact h.of_suffix List.nil_suffix

/-- The name of a declaration and what its shell is read from stand at the end of its tokens. -/
theorem declaration_shell {d : Declaration} (h : declaration stop ts = .ok d) :
    ∃ ns us, ns ++ us <:+ ts ∧ Grammar.Name ns d.path ∧ d.shell = shell d.path stop us := by
  unfold declaration at h
  split at h
  · cases h
  · next found r hattrs =>
    split at h
    · cases h
    · next path n hscan =>
      obtain rfl := Except.ok.inj h
      obtain ⟨ns, us, rfl, rfl, hn, -⟩ := QualifiedName.scan?_eq_some_iff.mp hscan
      exact ⟨ns, us, attributes_suffix hattrs, hn, by simp⟩

theorem declaration_rest_suffix {d : Declaration} (h : declaration stop ts = .ok d) :
    d.rest <:+ ts := by
  obtain ⟨ns, us, hsuffix, -, hshell⟩ := declaration_shell h
  cases hs : d.shell with
  | error e =>
    rw [Declaration.rest, hs]
    exact List.nil_suffix
  | ok sh =>
    rw [Declaration.rest, hs]
    exact ((shell_within (hshell.symm.trans hs)).1.trans (List.suffix_append ns us)).trans hsuffix

/-! ### Steps -/

theorem Step.bind_eq_error {α β : Type} {x : Step α} {f : α → Step β} {st st' : Session} :
    (x >>= f) st = .error e st' ↔
      x st = .error e st' ∨ ∃ a st₁, x st = .ok a st₁ ∧ f a st₁ = .error e st' := by
  simp only [bind, EStateM.bind]
  cases h : x st <;> simp

theorem Step.throw_eq_error {α : Type} {e' : ParseError} {st st' : Session} :
    (throw e' : Step α) st = .error e st' ↔ e' = e ∧ st = st' := by
  simp [throw, throwThe, MonadExceptOf.throw, EStateM.throw]

theorem Step.pure_ne_error {α : Type} {a : α} {st st' : Session} :
    ¬(pure a : Step α) st = .error e st' := by
  simp [pure, EStateM.pure]

/-- A declaration fails at its shell, or in its body. -/
theorem declared_eq_error {d : Declaration} {st st' : Session} (h : declared d st = .error e st') :
    d.shell = .error e ∨ ∃ sh st₁, d.shell = .ok sh ∧
      entries d.path.sort sh.bodyStop d.body st₁ = .error e st' := by
  rw [declared] at h
  rcases Step.bind_eq_error.mp h with hdraw | ⟨name, st₁, -, h⟩
  · cases hdraw
  rcases Step.bind_eq_error.mp h with hshell | ⟨sh, st₂, hshell, h⟩
  · cases hs : d.shell with
    | error e' =>
      rw [hs] at hshell
      exact .inl (congrArg Except.error (Step.throw_eq_error.mp hshell).1)
    | ok sh =>
      rw [hs] at hshell
      exact absurd hshell Step.pure_ne_error
  obtain ⟨hs, rfl⟩ := Step.ofExcept_eq_ok.mp hshell
  rcases Step.bind_eq_error.mp h with hentries | ⟨found, st₃, -, h⟩
  · exact .inr ⟨sh, st₁, hs, hentries⟩
  rcases Step.bind_eq_error.mp h with hnote | ⟨_, st₄, -, h⟩
  · cases hnote
  · exact absurd h Step.pure_ne_error

/-- A body fails at its first entry, or after it. -/
theorem entries_cons_eq_error {sort : WidgetSort} {t : Token} {st st' : Session}
    (h : entries sort stop (t :: ts) st = .error e st') :
    declaration stop (t :: ts) = .error e ∨
    (∃ d, declaration stop (t :: ts) = .ok d ∧
      (declared d st = .error e st' ∨ ∃ st₁, entries sort stop (skipComma d.rest) st₁ =
        .error e st')) ∨
    e = ParseError.expected stop (t :: ts) .identifier ∨
    ∃ name, t.ident? = some name ∧ (plainEntry stop sort name t.span.position ts = .error e ∨
      ∃ entry rest, plainEntry stop sort name t.span.position ts = .ok (entry, rest) ∧
        entries sort stop (skipComma rest) st = .error e st') := by
  cases hc : startsChild sort (t :: ts) with
  | true =>
    rw [entries_child hc] at h
    cases hd : declaration stop (t :: ts) with
    | error e' =>
      rw [hd] at h
      exact .inl (congrArg Except.error (Step.throw_eq_error.mp h).1)
    | ok d =>
      rw [hd] at h
      refine .inr (.inl ⟨d, rfl, ?_⟩)
      rcases Step.bind_eq_error.mp h with hv | ⟨v, st₁, -, h⟩
      · exact .inl hv
      rcases Step.bind_eq_error.mp h with hm | ⟨more, st₂, -, h⟩
      · exact .inr ⟨st₁, hm⟩
      · exact absurd h Step.pure_ne_error
  | false =>
    rw [entries_plain hc] at h
    refine .inr (.inr ?_)
    cases hi : t.ident? with
    | none =>
      rw [hi] at h
      exact .inl (Step.throw_eq_error.mp h).1.symm
    | some name =>
      rw [hi] at h
      dsimp only at h
      refine .inr ⟨name, rfl, ?_⟩
      cases hp : plainEntry stop sort name t.span.position ts with
      | error e' =>
        rw [hp] at h
        exact .inl (congrArg Except.error (Step.throw_eq_error.mp h).1)
      | ok r =>
        rw [hp] at h
        refine .inr ⟨r.1, r.2, rfl, ?_⟩
        rcases Step.bind_eq_error.mp h with hm | ⟨more, st₁, -, h⟩
        · exact hm
        · exact absurd h Step.pure_ne_error

mutual

theorem declared_met (d : Declaration) (stop : Nat × Nat) (ts : List Token) (st st' : Session)
    (hd : declaration stop ts = .ok d) (h : declared d st = .error e st') : e.Met ts stop := by
  obtain ⟨ns, us, hsuffix, hn, hshell⟩ := declaration_shell hd
  rcases declared_eq_error h with hs | ⟨sh, st₁, hs, hentries⟩
  · exact (shell_met hn (hshell.symm.trans hs)).of_suffix hsuffix
  · have hbody : d.body = sh.body := by rw [Declaration.body, hs]
    have hmet := entries_met d.path.sort sh.bodyStop d.body st₁ st' hentries
    rw [hbody] at hmet
    exact (shell_body_met (hshell.symm.trans hs) hmet).of_suffix
      ((List.suffix_append ns us).trans hsuffix)
termination_by 2 * sizeOf d.body + 1

theorem entries_met (sort : WidgetSort) (stop : Nat × Nat) (ts : List Token) (st st' : Session)
    (h : entries sort stop ts st = .error e st') : e.Met ts stop := by
  match ts, h with
  | [], h =>
    rw [entries] at h
    exact absurd h Step.pure_ne_error
  | t :: us, h =>
    rcases entries_cons_eq_error h with
      hd | ⟨d, hd, hv | ⟨st₁, hm⟩⟩ | rfl | ⟨name, hname, hp | ⟨entry, rest, hp, hm⟩⟩
    · exact (declaration_met hd).resolve_left (by simp)
    · exact declared_met d stop (t :: us) st st' hd hv
    · have hmet := entries_met sort stop (skipComma d.rest) st₁ st' hm
      exact hmet.of_suffix ((skipComma_suffix d.rest).trans (declaration_rest_suffix hd))
    · exact .expected stop t us _
    · exact plainEntry_met hname hp
    · have hmet := entries_met sort stop (skipComma rest) st st' hm
      exact hmet.of_suffix
        ((skipComma_suffix rest).trans ((plainEntry_suffix hp).trans (List.suffix_cons t us)))
termination_by 2 * sizeOf ts
decreasing_by
  · have := (declaration_skipComma_within hd).1
    omega
  · have := (declaration_skipComma_within hd).2
    omega
  · have := plainEntry_skipComma_within hp t
    omega

end

/-- There is nothing to read a view from, or its error is met among the tokens. -/
theorem root_met {st st' : Session} (h : root ts st = .error e st') :
    (ts = [] ∧ e = ParseError.atStop (.expected .qualifiedName none) (endOf ts)) ∨
      e.Met ts (endOf ts) := by
  cases hd : declaration (endOf ts) ts with
  | error e' =>
    simp only [root, hd] at h
    obtain rfl := (Step.throw_eq_error.mp h).1
    exact declaration_met hd
  | ok d =>
    right
    simp only [root, hd] at h
    rcases Step.bind_eq_error.mp h with hv | ⟨v, st₁, -, h⟩
    · exact declared_met d _ ts st st' hd hv
    · have hsuffix := (skipComma_suffix d.rest).trans (declaration_rest_suffix hd)
      generalize skipComma d.rest = rest at h hsuffix
      cases rest with
      | nil => exact absurd h Step.pure_ne_error
      | cons t more =>
        obtain rfl := (Step.throw_eq_error.mp h).1
        exact .found (hsuffix.subset List.mem_cons_self)

end Parse

/-! ### Positions of errors -/

/-- An error about a run of tokens that ends at `stop`. -/
inductive ParseError.Placed (ts : List Token) (stop : Nat × Nat) : ParseError → Prop where
  | token {fault : ParseFault} {t : Token} (h : t ∈ descendants ts) :
      Placed ts stop (atToken fault t)
  | group {fault : ParseFault} {d : Delimiter} {cs : List Token} {s : Span}
      (h : .group d cs s ∈ descendants ts) : Placed ts stop (atStop fault s.position)
  | stop {fault : ParseFault} : Placed ts stop (atStop fault stop)

theorem ParseError.Met.placed {ts : List Token} {stop : Nat × Nat} {e : ParseError}
    (h : e.Met ts stop) : e.Placed ts stop := by
  induction h with
  | found h => exact .token (mem_descendants_of_mem h)
  | ended _ _ => exact .stop
  | missing hg _ => exact .group (mem_descendants_of_mem hg)
  | inside hg _ ih =>
    cases ih with
    | token ht => exact .token (descendants_group_subset hg ht)
    | group hs => exact .group (descendants_group_subset hg hs)
    | stop => exact .group (mem_descendants_of_mem hg)

/-- An error about a view is at one of its tokens, or at the end of a group, or at the end of the
view. -/
theorem Parse.root_placed {ts : List Token} {e : ParseError} {st st' : Session}
    (h : root ts st = .error e st') : e.Placed ts (endOf ts) := by
  rcases root_met h with ⟨-, rfl⟩ | hmet
  · exact .stop
  · exact hmet.placed

end WidgetView
