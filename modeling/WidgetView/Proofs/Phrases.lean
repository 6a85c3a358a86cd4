import WidgetView.Proofs.Grammar
import WidgetView.Proofs.Provenance

/-!
# Phrases below a widget

The phrases below a widget: expressions, the contents of groups, and the entries that are no
widgets. Each reading function is tied to its phrase by an equivalence that holds whatever the end
position is: it succeeds and leaves `rest` exactly if the phrase stands at the front with `rest`
behind it.
-/
namespace WidgetView.Parse

open Grammar

variable {stop : Nat × Nat} {ts rest : List Token}

/-! ### Expressions and lists -/

theorem value_accepts {wanted : Wanted} :
    (∃ e, value stop wanted ts = .ok (e, rest)) ↔ Expression ts rest := by
  constructor
  · rintro ⟨e, h⟩
    unfold value at h
    split at h
    · cases h
    · next t more heq =>
      obtain ⟨-, rfl⟩ := Prod.mk.inj (Except.ok.inj h)
      refine ⟨ts.takeWhile (!isComma ·), List.takeWhile_append_dropWhile.symm,
        by simp [heq], ?_, ?_⟩
      · intro u hu
        simpa [isComma] using List.mem_takeWhile_imp hu
      · cases hd : ts.dropWhile (!isComma ·) with
        | nil => exact .done
        | cons u us =>
          have hcomma := List.head_dropWhile_not (p := (!isComma ·)) (l := ts) (by simp [hd])
          simp only [hd, List.head_cons] at hcomma
          exact .comma (by simpa [isComma] using hcomma)
  · rintro ⟨es, rfl, hne, hno, hends⟩
    have hin : ∀ t ∈ es, (!isComma t) = true := fun t ht => by simpa [isComma] using hno t ht
    have htake : rest.takeWhile (!isComma ·) = [] ∧ rest.dropWhile (!isComma ·) = rest := by
      cases hends with
      | done => exact ⟨rfl, rfl⟩
      | comma h => simp [isComma, h]
    obtain ⟨t, more, rfl⟩ := List.exists_cons_of_ne_nil hne
    refine ⟨⟨t, more⟩, ?_⟩
    rw [value, List.takeWhile_append_of_pos hin, List.dropWhile_append_of_pos hin, htake.1, htake.2,
      List.append_nil]

theorem skipComma_comma {t : Token} (h : t.isPunctOf ",") : skipComma (t :: ts) = ts := if_pos h

/-- A list goes on behind the comma that ends its first phrase. -/
theorem listed_of_phrase {Phrase : List Token → List Token → Prop} (h : Phrase ts rest)
    (hends : Ends rest) (hm : Listed Phrase (skipComma rest)) : Listed Phrase ts := by
  cases hends with
  | done => exact .last h
  | comma hc =>
    rw [skipComma_comma hc] at hm
    exact .more h hc hm

theorem ends_of_expression (h : Expression ts rest) : Ends rest := by
  obtain ⟨-, -, -, -, hends⟩ := h
  exact hends

theorem exprs_of_value {e : Expr} (h : value stop .expression ts = .ok (e, rest)) :
    exprs stop ts = (exprs stop (skipComma rest)).map (e :: ·) := by
  have hne : ts ≠ [] := by
    rintro rfl
    cases h
  rw [exprs, if_neg hne]
  split
  · next h' =>
    rw [h] at h'
    cases h'
  · next h' =>
    rw [h] at h'
    obtain ⟨rfl, rfl⟩ := Prod.mk.inj (Except.ok.inj h')
    cases exprs stop (skipComma rest) <;> rfl

theorem exprs_accepts : (∃ es, exprs stop ts = .ok es) ↔ Listed Expression ts := by
  constructor
  · rintro ⟨es, h⟩
    fun_induction exprs stop ts generalizing es with
    | case1 => exact .nil
    | case2 => cases h
    | case3 => cases h
    | case4 ts _ e rest hv es' hes ih =>
      have hphrase : Expression ts rest := value_accepts.mp ⟨e, hv⟩
      exact listed_of_phrase hphrase (ends_of_expression hphrase) (ih es' hes)
  · intro h
    induction h with
    | nil => exact ⟨[], by rw [exprs, if_pos rfl]⟩
    | last h =>
      obtain ⟨e, he⟩ := value_accepts.mpr h
      exact ⟨[e], by rw [exprs_of_value he, skipComma, exprs, if_pos rfl]; rfl⟩
    | more h hc _ ih =>
      obtain ⟨e, he⟩ := value_accepts.mpr h
      obtain ⟨es, hes⟩ := ih
      exact ⟨e :: es, by rw [exprs_of_value he, skipComma_comma hc, hes]; rfl⟩

theorem params_accepts : (∃ names, params stop ts = .ok names) ↔ Listed Param ts := by
  constructor
  · rintro ⟨names, h⟩
    fun_induction params stop ts generalizing names with
    | case1 => exact .nil
    | case2 => cases h
    | case3 t name ht => exact .last (.name (Token.isIdent_iff.mpr ⟨_, ht⟩))
    | case4 => cases h
    | case5 t name ht u us hu names' hnames ih =>
      exact .more (.name (Token.isIdent_iff.mpr ⟨_, ht⟩)) hu (ih names' hnames)
    | case6 => cases h
  · intro h
    induction h with
    | nil => exact ⟨[], rfl⟩
    | last h =>
      cases h with
      | name ht =>
        obtain ⟨name, hname⟩ := Token.isIdent_iff.mp ht
        exact ⟨[name], by simp [params, hname]⟩
    | more h hc _ ih =>
      cases h with
      | name ht =>
        obtain ⟨name, hname⟩ := Token.isIdent_iff.mp ht
        obtain ⟨names, hnames⟩ := ih
        exact ⟨name :: names, by simp [params, hname, isComma, hc, hnames]⟩

theorem childProperties_of_value {t u : Token} {name : String} {e : Expr}
    (ht : t.ident? = some name) (hu : u.isPunctOf ":")
    (h : value stop (.childValue name) ts = .ok (e, rest)) :
    childProperties stop (t :: u :: ts) =
      (childProperties stop (skipComma rest)).map ((name, e) :: ·) := by
  rw [childProperties.eq_def]
  simp only [ht, hu, if_true]
  split
  · next h' =>
    rw [h] at h'
    cases h'
  · next h' =>
    rw [h] at h'
    obtain ⟨rfl, rfl⟩ := Prod.mk.inj (Except.ok.inj h')
    cases childProperties stop (skipComma rest) <;> rfl

theorem childProperties_accepts : (∃ es, childProperties stop ts = .ok es) ↔ Listed Pair ts := by
  constructor
  · rintro ⟨es, h⟩
    fun_induction childProperties stop ts generalizing es with
    | case1 => exact .nil
    | case2 => cases h
    | case3 => cases h
    | case4 => cases h
    | case5 => cases h
    | case6 t name u us ht hu e rest hv es' hes ih =>
      have hphrase : Expression us rest := value_accepts.mp ⟨e, hv⟩
      exact listed_of_phrase (.pair (Token.isIdent_iff.mpr ⟨_, ht⟩) hu hphrase)
        (ends_of_expression hphrase) (ih es' hes)
    | case7 => cases h
  · intro h
    induction h with
    | nil => exact ⟨[], by rw [childProperties]⟩
    | last h =>
      cases h with
      | pair ht hu h =>
        obtain ⟨name, hname⟩ := Token.isIdent_iff.mp ht
        obtain ⟨e, he⟩ := value_accepts.mpr h
        exact ⟨[(name, e)], by
          rw [childProperties_of_value hname hu he, skipComma, childProperties]; rfl⟩
    | more h hc _ ih =>
      cases h with
      | pair ht hu h =>
        obtain ⟨name, hname⟩ := Token.isIdent_iff.mp ht
        obtain ⟨e, he⟩ := value_accepts.mpr h
        obtain ⟨es, hes⟩ := ih
        exact ⟨(name, e) :: es, by
          rw [childProperties_of_value hname hu he, skipComma_comma hc, hes]; rfl⟩

/-! ### Entries that are no widgets -/

/-- What a reader makes of its result does not matter to what it accepts. -/
theorem map_accepts {α β : Type} {x : Except ParseError (α × List Token)} {f : α → β} :
    (∃ b, x.map (fun r => (f r.1, r.2)) = .ok (b, rest)) ↔ ∃ a, x = .ok (a, rest) := by
  rcases x with e | ⟨a, us⟩ <;> simp [Except.map]

theorem effect_cons {t : Token} (hgroup : ¬t.isGroupOf .paren) :
    effect stop (t :: ts) =
      if t.isIdentOf "return" then (value stop .returned ts).map fun r => (.callReturn r.1, r.2)
      else (value stop .effect (t :: ts)).map fun r => (.fire r.1, r.2) := by
  cases t with
  | leaf l => rfl
  | group d cs s => cases d <;> first | rfl | exact absurd rfl hgroup

/-- A message and an answer use up their group, whatever follows the answer in it. -/
theorem effect_group_accepts {cs : List Token} {s : Span} :
    (∃ eff, effect stop (.group .paren cs s :: ts) = .ok (eff, rest)) ↔
      ts = rest ∧ ∃ t more left, Expression cs (t :: more) ∧ t.isPunctOf "," ∧
        Expression more left := by
  constructor
  · rintro ⟨eff, h⟩
    rw [effect] at h
    split at h
    · cases h
    · next message r hmessage =>
      split at h
      · next hcomma =>
        split at h
        · cases h
        · next answer left hanswer =>
          obtain ⟨-, rfl⟩ := Prod.mk.inj (Except.ok.inj h)
          cases r with
          | nil => cases hcomma
          | cons t more =>
            exact ⟨rfl, t, more, left, value_accepts.mp ⟨_, hmessage⟩, hcomma,
              value_accepts.mp ⟨_, hanswer⟩⟩
      · cases h
  · rintro ⟨rfl, t, more, left, hm, hc, ha⟩
    obtain ⟨message, hmessage⟩ : ∃ e, value s.position .message cs = .ok (e, t :: more) :=
      value_accepts.mpr hm
    obtain ⟨answer, hanswer⟩ : ∃ e, value s.position .answer more = .ok (e, left) :=
      value_accepts.mpr ha
    have hcomma : isComma t = true := hc
    exact ⟨.paired message answer, by simp [effect, hmessage, hcomma, hanswer]⟩

theorem effect_accepts : (∃ eff, effect stop ts = .ok (eff, rest)) ↔ Grammar.Effect ts rest := by
  constructor
  · intro h
    cases ts with
    | nil => exact absurd h (by simp [effect])
    | cons t ts =>
      by_cases hgroup : t.isGroupOf .paren
      · obtain ⟨cs, s, rfl⟩ := Token.isGroupOf_eq_true hgroup
        obtain ⟨rfl, t, more, left, hm, hc, ha⟩ := effect_group_accepts.mp h
        exact .paired hm hc ha
      · rw [effect_cons hgroup] at h
        split at h
        · next hreturn => exact .callReturn hreturn (value_accepts.mp (map_accepts.mp h))
        · next hreturn => exact .fire hreturn hgroup (value_accepts.mp (map_accepts.mp h))
  · intro h
    cases h with
    | fire hreturn hgroup h =>
      rw [effect_cons hgroup, if_neg hreturn]
      exact map_accepts.mpr (value_accepts.mpr h)
    | @callReturn t ts _ ht h =>
      have hgroup : ¬t.isGroupOf .paren := by
        cases t with
        | leaf l => simp [Token.isGroupOf]
        | group d cs s => cases ht
      rw [effect_cons hgroup, if_pos ht]
      exact map_accepts.mpr (value_accepts.mpr h)
    | paired h hc ha => exact effect_group_accepts.mpr ⟨rfl, _, _, _, h, hc, ha⟩

theorem sent_accepts :
    (∃ eff, effect stop (eventTarget ts).2 = .ok (eff, rest)) ↔ Sent ts rest := by
  rw [effect_accepts]
  constructor
  · intro h
    unfold eventTarget at h
    split at h
    · next t u us =>
      split at h
      · next name ht hu => exact .foreign (Token.isIdent_iff.mpr ⟨_, ht⟩) hu h
      · next hno =>
        refine .own ?_ h
        rintro _ _ _ ⟨⟩ ht hu
        obtain ⟨name, hname⟩ := Token.isIdent_iff.mp ht
        exact hno name hname hu
    · next hshort => exact .own (fun t u us heq => absurd heq (hshort t u us)) h
  · intro h
    cases h with
    | foreign ht hu h =>
      obtain ⟨name, hname⟩ := Token.isIdent_iff.mp ht
      simpa [eventTarget, hname, hu] using h
    | own hno h =>
      unfold eventTarget
      split
      · next t u us =>
        split
        · next name ht hu => exact absurd hu (hno t u us rfl (Token.isIdent_iff.mpr ⟨_, ht⟩))
        · exact h
      · exact h

theorem arrow_iff : Arrow ts rest ↔
    ∃ t us, (eventModel ts).2 = t :: us ∧ t.isPunctOf "=>" ∧ Sent us rest := by
  constructor
  · intro h
    cases h with
    | @plain t us _ ht h =>
      have hwith : t.isIdentOf "with" = false := by
        obtain ⟨span, rfl⟩ := Token.isPunctOf_eq_true ht
        rfl
      refine ⟨t, us, ?_, ht, h⟩
      cases us <;> simp [eventModel, hwith]
    | model ht hu hv h =>
      obtain ⟨name, hname⟩ := Token.isIdent_iff.mp hu
      exact ⟨_, _, by simp [eventModel, ht, hname], hv, h⟩
  · rintro ⟨t, us, heq, ht, h⟩
    unfold eventModel at heq
    split at heq
    · split at heq
      · next hwith hname =>
        obtain rfl := heq
        exact .model hwith (Token.isIdent_iff.mpr ⟨_, hname⟩) ht h
      · obtain ⟨rfl, rfl⟩ := List.cons.inj heq
        exact .plain ht h
    · obtain rfl := heq
      exact .plain ht h

/-- Behind its parameters an event is accepted by its arrow. -/
theorem event_of_params {sort : WidgetSort} {signal : String} {place : Nat × Nat} {us : List Token}
    {names : List String} (h : eventParams sort ts = .ok (names, us)) :
    (∃ e, event stop sort signal place ts = .ok (e, rest)) ↔ Arrow us rest := by
  rw [event, h, arrow_iff]
  dsimp only
  constructor
  · rintro ⟨e, he⟩
    split at he
    · cases he
    · next t vs hm =>
      split at he
      · next ht =>
        split at he
        · cases he
        · next heff =>
          obtain ⟨-, rfl⟩ := Prod.mk.inj (Except.ok.inj he)
          exact ⟨t, vs, hm, ht, sent_accepts.mp ⟨_, heff⟩⟩
      · cases he
  · rintro ⟨t, vs, hm, ht, hsent⟩
    obtain ⟨eff, heff⟩ : ∃ eff, effect stop (eventTarget vs).2 = .ok (eff, rest) :=
      sent_accepts.mpr hsent
    simp [hm, ht, heff]

theorem event_accepts {sort : WidgetSort} {signal : String} {place : Nat × Nat} {t : Token}
    (ht : t.isGroupOf .paren ∨ t.isPunctOf "=>") :
    (∃ e, event stop sort signal place (t :: ts) = .ok (e, rest)) ↔ Handler (t :: ts) rest := by
  rcases ht with ht | ht
  · obtain ⟨cs, s, rfl⟩ := Token.isGroupOf_eq_true ht
    constructor
    · rintro ⟨e, h⟩
      cases hp : params s.position cs with
      | error e' => simp [event, eventParams, hp, Except.map] at h
      | ok names =>
        have hparams : eventParams sort (.group .paren cs s :: ts) = .ok (names, ts) := by
          simp [eventParams, hp, Except.map]
        exact .params (params_accepts.mp ⟨names, hp⟩) ((event_of_params hparams).mp ⟨e, h⟩)
    · intro h
      cases h with
      | bare ht _ => cases ht
      | params hp h =>
        obtain ⟨names, hnames⟩ : ∃ names, params s.position cs = .ok names := params_accepts.mpr hp
        have hparams : eventParams sort (.group .paren cs s :: ts) = .ok (names, ts) := by
          simp [eventParams, hnames, Except.map]
        exact (event_of_params hparams).mpr h
  · obtain ⟨span, rfl⟩ := Token.isPunctOf_eq_true ht
    rw [event_of_params rfl]
    constructor
    · intro h
      cases h with
      | plain _ h => exact .bare ht h
      | model hw _ _ _ => cases hw
    · intro h
      cases h with
      | bare _ h => exact .plain ht h

theorem handler_head (h : Handler ts rest) :
    ∃ t us, ts = t :: us ∧ (t.isGroupOf .paren ∨ t.isPunctOf "=>") := by
  cases h with
  | bare ht _ => exact ⟨_, _, rfl, .inr ht⟩
  | params _ _ => exact ⟨_, _, rfl, .inl rfl⟩

theorem plainEntry_accepts {sort : WidgetSort} {name : String} {place : Nat × Nat} :
    (∃ e, plainEntry stop sort name place ts = .ok (e, rest)) ↔ Binding ts rest := by
  constructor
  · intro h
    cases ts with
    | nil => exact absurd h (by simp [plainEntry])
    | cons t ts =>
      rw [plainEntry.eq_def] at h
      by_cases hcolon : t.isPunctOf ":"
      · simp only [hcolon, if_true] at h
        split at h
        · next cs s us =>
          obtain ⟨e, he⟩ := h
          cases hp : childProperties s.position cs with
          | error e' => simp [hp, Except.map] at he
          | ok es =>
            simp only [hp, Except.map, Except.ok.injEq, Prod.mk.injEq] at he
            rw [← he.2]
            exact .childProperties hcolon (childProperties_accepts.mp ⟨es, hp⟩)
        · next hno =>
          exact .property hcolon hno (value_accepts.mp (map_accepts.mp h))
      · simp only [hcolon, Bool.false_eq_true, if_false] at h
        split at h
        · next hhead =>
          exact .event ((event_accepts (Bool.or_eq_true_iff.mp hhead)).mp (map_accepts.mp h))
        · obtain ⟨e, he⟩ := h
          cases he
  · intro h
    cases h with
    | @childProperties t cs s _ ht h =>
      obtain ⟨es, hes⟩ : ∃ es, childProperties s.position cs = .ok es :=
        childProperties_accepts.mpr h
      exact ⟨.childProperties es, by simp [plainEntry, ht, hes, Except.map]⟩
    | property ht hno h =>
      rw [plainEntry.eq_def]
      simp only [ht, if_true]
      exact map_accepts.mpr (value_accepts.mpr h)
    | event h =>
      obtain ⟨t, us, rfl, hhead⟩ := handler_head h
      have hcolon : ¬t.isPunctOf ":" := by
        intro hcolon
        rcases hhead with hhead | hhead
        · obtain ⟨cs, s, rfl⟩ := Token.isGroupOf_eq_true hhead
          cases hcolon
        · exact absurd (Token.isPunctOf_unique hcolon hhead) (by decide)
      rw [plainEntry.eq_def]
      dsimp only
      rw [if_neg hcolon, if_pos (Bool.or_eq_true_iff.mpr hhead)]
      exact map_accepts.mpr ((event_accepts hhead).mpr h)

end WidgetView.Parse
