import WidgetView.Proofs.Acceptance
import WidgetView.Proofs.Origins

/-!
# Macro calls and views

Macro calls and views. A macro call is a path, an exclamation mark and one group, perhaps with a
semicolon behind it. The name that a view begins with has no exclamation mark behind it, so no macro
call is a view, whatever its group holds. Hence a file has one reading at most, as a macro call or
as a bare view, and all who read a view from the file take the same one.
-/
namespace WidgetView

open Grammar

namespace MacroCall

/-- A macro call and its body. -/
inductive Calls : List Token → List Token → Prop where
  | plain {path body : List Token} {ss : List String} {mark : Token} {d : Delimiter} {s : Span}
      (hp : Segments path ss) (hm : mark.isPunctOf "!") :
      Calls (path ++ [mark, .group d body s]) body
  | ended {path body : List Token} {ss : List String} {mark semicolon : Token}
      {d : Delimiter} {s : Span}
      (hp : Segments path ss) (hm : mark.isPunctOf "!") (hs : semicolon.isPunctOf ";") :
      Calls (path ++ [mark, .group d body s, semicolon]) body

theorem Calls.begins {ts body : List Token} (h : Calls ts body) :
    ∃ path ss mark rest, ts = path ++ mark :: rest ∧ Segments path ss ∧ mark.isPunctOf "!" := by
  cases h with
  | plain hp hm => exact ⟨_, _, _, _, rfl, hp, hm⟩
  | ended hp hm _ => exact ⟨_, _, _, _, rfl, hp, hm⟩

/-! ### The body of a call -/

theorem loneGroup?_eq_some {ts body : List Token} (h : loneGroup? ts = some body) :
    ∃ d s, ts = [.group d body s] ∨ ∃ semicolon, ts = [.group d body s, semicolon] ∧
      semicolon.isPunctOf ";" := by
  unfold loneGroup? at h
  split at h
  · next d cs s =>
    obtain rfl := Option.some.inj h
    exact ⟨d, s, .inl rfl⟩
  · next d cs s t =>
    split at h
    · next ht =>
      obtain rfl := Option.some.inj h
      exact ⟨d, s, .inr ⟨t, rfl, ht⟩⟩
    · cases h
  · cases h

theorem dropSegments_pair {t u : Token} (ht : t.isPunctOf "::") (hu : u.isIdent) (ts : List Token) :
    dropSegments (t :: u :: ts) = dropSegments ts := by
  rw [dropSegments, if_pos (by simp [ht, hu])]

/-- Behind the first segment the others are dropped, and nothing else. -/
theorem dropSegments_segments {path rest : List Token} {ss : List String} {mark : Token}
    (h : Segments path ss) (hm : mark.isPunctOf "!") :
    dropSegments (path.tail ++ mark :: rest) = mark :: rest := by
  induction h with
  | one _ =>
    obtain ⟨span, rfl⟩ := Token.isPunctOf_eq_true hm
    cases rest <;> rfl
  | more _ hu hmore ih =>
    obtain ⟨v, vs, rfl, hv⟩ := hmore.head
    rw [List.tail_cons, List.cons_append, List.cons_append, dropSegments_pair hu hv]
    exact ih

/-- What is dropped behind an identifier makes a path with it. -/
theorem exists_segments {t : Token} (ht : t.isIdent) (ts : List Token) :
    ∃ path ss, t :: ts = path ++ dropSegments ts ∧ Segments path ss := by
  obtain ⟨name, hname⟩ := Token.isIdent_iff.mp ht
  fun_induction dropSegments ts generalizing t name with
  | case1 u v ts hc ih =>
    obtain ⟨hu, hv⟩ := Bool.and_eq_true_iff.mp hc
    obtain ⟨next, hnext⟩ := Token.isIdent_iff.mp hv
    obtain ⟨path, ss, hpath, hss⟩ := ih hv next hnext
    exact ⟨t :: u :: path, name :: ss, by rw [hpath]; rfl, .more hname hu hss⟩
  | case2 => exact ⟨[t], [name], rfl, .one hname⟩
  | case3 => exact ⟨[t], [name], rfl, .one hname⟩

theorem calls_of_body? {ts body : List Token} (h : body? ts = some body) : Calls ts body := by
  unfold body? at h
  split at h
  · next t ts =>
    split at h
    · next ht =>
      obtain ⟨path, ss, hpath, hss⟩ := exists_segments ht ts
      split at h
      · next mark rest hdrop =>
        rw [hdrop] at hpath
        split at h
        · next hm =>
          obtain ⟨d, s, rfl | ⟨semicolon, rfl, hs⟩⟩ := loneGroup?_eq_some h
          · rw [hpath]
            exact .plain hss hm
          · rw [hpath]
            exact .ended hss hm hs
        · cases h
      · cases h
    · cases h
  · cases h

theorem body?_of_segments {path rest : List Token} {ss : List String} {mark : Token}
    (hp : Segments path ss) (hm : mark.isPunctOf "!") :
    body? (path ++ mark :: rest) = loneGroup? rest := by
  obtain ⟨t, us, rfl, ht⟩ := hp.head
  have hdrop : dropSegments (us ++ mark :: rest) = mark :: rest := dropSegments_segments hp hm
  simp [body?, ht, hdrop, hm]

/-- A body is found exactly in macro calls. -/
theorem body?_eq_some_iff {ts body : List Token} : body? ts = some body ↔ Calls ts body := by
  constructor
  · exact calls_of_body?
  · intro h
    cases h with
    | plain hp hm => rw [body?_of_segments hp hm, loneGroup?]
    | ended hp hm hs =>
      rw [body?_of_segments hp hm]
      exact if_pos hs

/-! ### No view -/

/-- A path with an exclamation mark behind it is no qualified name. -/
theorem scan?_of_segments {path rest : List Token} {ss : List String} {mark : Token}
    (hp : Segments path ss) (hm : mark.isPunctOf "!") :
    QualifiedName.scan? (path ++ mark :: rest) = none := by
  have hreach : QualifiedName.reach 0 (path ++ mark :: rest) = path.length := by
    rw [QualifiedName.reach_segments hp]
    obtain ⟨span, rfl⟩ := Token.isPunctOf_eq_true hm
    rfl
  have hfollow : QualifiedName.mayFollow (mark :: rest) = false := by
    obtain ⟨span, rfl⟩ := Token.isPunctOf_eq_true hm
    rfl
  simp only [QualifiedName.scan?, hreach, List.drop_left, hfollow]
  split <;> rfl

/-- A macro call is refused at its first token, before any name is drawn. -/
theorem Calls.view_eq {ts body : List Token} (h : Calls ts body) (fs : FileSystem) (base : Pathname)
    (st : Session) :
    Source.view fs base ts st =
      (.error (.parse (ParseError.expected (endOf ts) ts .qualifiedName)), st) := by
  obtain ⟨path, ss, mark, rest, rfl, hp, hm⟩ := h.begins
  have hscan : QualifiedName.scan? (path ++ mark :: rest) = none := scan?_of_segments hp hm
  generalize hts : path ++ mark :: rest = ts at hscan
  obtain ⟨t, us, rfl, ht⟩ : ∃ t us, ts = t :: us ∧ t.isIdent := by
    obtain ⟨t, us, rfl, ht⟩ := hp.head
    exact ⟨t, us ++ mark :: rest, hts.symm, ht⟩
  have hno : ∀ u vs, t :: us = u :: vs → ¬u.isPunctOf "#" := by
    rintro _ _ ⟨⟩ hmark
    obtain ⟨span, rfl⟩ := Token.isPunctOf_eq_true hmark
    cases ht
  have hfollow : Source.follow fs base (t :: us) = .ok (t :: us) := by
    obtain ⟨name, hname⟩ := Token.isIdent_iff.mp ht
    obtain ⟨span, rfl⟩ := Token.ident?_eq_some hname
    rfl
  have hdeclaration : Parse.declaration (endOf (t :: us)) (t :: us) =
      .error (ParseError.expected (endOf (t :: us)) (t :: us) .qualifiedName) := by
    rw [Parse.declaration_of_no_mark hno, hscan]
  simp only [Source.view, hfollow, Parse.root, hdeclaration]
  rfl

end MacroCall

namespace Source

variable {fs : FileSystem} {path : Pathname} {st st' : Session} {v : View}

/-- Tokens that give a view are no macro call. -/
theorem body?_of_view {base : Pathname} {ts : List Token} (h : view fs base ts st = (.ok v, st')) :
    MacroCall.body? ts = none := by
  rw [Option.eq_none_iff_forall_ne_some]
  intro body hbody
  rw [(MacroCall.calls_of_body? hbody).view_eq] at h
  cases h

theorem viewOfFile_of_viewOfMacroFile (h : viewOfMacroFile fs path st = (.ok v, st')) :
    viewOfFile fs path st = (.ok v, st') := by
  unfold viewOfMacroFile at h
  split at h
  · cases h
  · next us hcall =>
    obtain ⟨text, ts, htext, htokens, hbody⟩ := macroTokens_eq_ok hcall
    simp only [viewOfFile, fileTokens, htext, htokens, hbody, Option.getD_some]
    exact h

/-- A file with a bare view in it is read as it stands, and is no macro call for those who ask for
one. -/
theorem viewOfFile_of_view {text : List Char} {ts : List Token}
    (htext : fs.readText path = .ok text) (htokens : tokenize text = .ok ts)
    (h : view fs path.parent ts st = (.ok v, st')) :
    viewOfFile fs path st = (.ok v, st') ∧
      viewOfMacroFile fs path st =
        (.error (.parse (ParseError.expected (1, 1) ts .macroCall)), st) := by
  have hbody := body?_of_view h
  constructor
  · simp only [viewOfFile, fileTokens, htext, htokens, hbody, Option.getD_none]
    exact h
  · simp only [viewOfMacroFile, macroTokens, htext, htokens, hbody]

/-- A body is found exactly in macro calls, and no macro call is a view: the name at its front is
refused. So a file that is accepted as a macro call is read as the same view where both forms are
allowed, and so is a file that is accepted as a bare view, in which no macro call is seen. -/
theorem calls_are_no_views :
    (∀ ts body, MacroCall.body? ts = some body ↔ MacroCall.Calls ts body) ∧
      (∀ ts body, MacroCall.Calls ts body → ∀ fs base st, view fs base ts st =
        (.error (.parse (ParseError.expected (endOf ts) ts .qualifiedName)), st)) ∧
      (∀ fs path st v st', viewOfMacroFile fs path st = (.ok v, st') →
        viewOfFile fs path st = (.ok v, st')) ∧
      ∀ fs path text ts st v st', fs.readText path = .ok text → tokenize text = .ok ts →
        view fs path.parent ts st = (.ok v, st') →
        MacroCall.body? ts = none ∧ viewOfFile fs path st = (.ok v, st') ∧
          viewOfMacroFile fs path st =
            (.error (.parse (ParseError.expected (1, 1) ts .macroCall)), st) := by
  refine ⟨fun _ _ => MacroCall.body?_eq_some_iff, fun _ _ h => h.view_eq, fun _ _ _ _ _ => ?_, ?_⟩
  · exact viewOfFile_of_viewOfMacroFile
  · intro fs path text ts st v st' htext htokens h
    exact ⟨body?_of_view h, viewOfFile_of_view htext htokens h⟩

/-- One view twice, in brackets behind a path of two segments and bare. -/
theorem calls_are_no_views_samples :
    let call := "a::b![gtk::Box \x7b \x7d,];".toList
    let bare := "gtk::Box \x7b \x7d,".toList
    let fs : FileSystem :=
      { nodes :=
        ⟨[(["call"], .file (Text.Utf8.encode call)), (["bare"], .file (Text.Utf8.encode bare))]⟩ }
    (∃ ts body, tokenize call = .ok ts ∧ MacroCall.Calls ts body ∧
      ∃ e, view fs (Pathname.ofString ".") ts {} = (.error (.parse e), {})) ∧
    (∃ v st', viewOfMacroFile fs (Pathname.ofString "call") {} = (.ok v, st') ∧
      viewOfFile fs (Pathname.ofString "call") {} = (.ok v, st')) ∧
    ∃ ts v st', tokenize bare = .ok ts ∧ MacroCall.body? ts = none ∧
      viewOfFile fs (Pathname.ofString "bare") {} = (.ok v, st') := by
  intro call bare fs
  obtain ⟨hbody, hrefused, hsame, hbare⟩ := calls_are_no_views
  refine ⟨?_, ?_, ?_⟩
  · obtain ⟨ts, ht, hts⟩ :=
      exists_ok_of_any (x := tokenize call) (p := fun ts => (MacroCall.body? ts).isSome)
      (by decide +kernel)
    obtain ⟨body, hcall⟩ := Option.isSome_iff_exists.mp hts
    have hcalls := (hbody ts body).mp hcall
    exact ⟨ts, body, ht, hcalls, _, hrefused ts body hcalls fs _ {}⟩
  · obtain ⟨v, hv, -⟩ :=
      exists_ok_of_any (x := (viewOfMacroFile fs (Pathname.ofString "call") {}).1)
      (p := fun _ => true) (by decide +kernel)
    have h : viewOfMacroFile fs (Pathname.ofString "call") {} =
        (.ok v, (viewOfMacroFile fs (Pathname.ofString "call") {}).2) := by rw [← hv]
    exact ⟨v, _, h, hsame _ _ _ _ _ h⟩
  · have htext : fs.readText (Pathname.ofString "bare") = .ok bare := by decide +kernel
    obtain ⟨ts, ht, hts⟩ := exists_ok_of_any (x := tokenize bare)
      (p := fun ts => (view fs (Pathname.ofString "bare").parent ts {}).1.toOption.any
        fun _ => true)
      (by decide +kernel)
    obtain ⟨v, hv, -⟩ := exists_ok_of_any hts
    have h : view fs (Pathname.ofString "bare").parent ts {} =
        (.ok v, (view fs (Pathname.ofString "bare").parent ts {}).2) := by rw [← hv]
    obtain ⟨hnone, hfile, -⟩ := hbare fs _ bare ts {} v _ htext ht h
    exact ⟨ts, v, _, ht, hnone, hfile⟩

end Source

end WidgetView
