import WidgetView.Proofs.Standing
import WidgetView.Source

/-!
# Where a view comes from

Where a view comes from. A view is read from the contents of a macro call, or from all tokens of a
source; and a string in the place of a view is followed once. The file that is told as the origin of
a view is read a second time, apart from the view, and still is the one that the view was read from.
-/
namespace WidgetView

namespace MacroCall

theorem dropSegments_suffix (ts : List Token) : dropSegments ts <:+ ts := by
  fun_induction dropSegments ts with
  | case1 t u ts _ ih => exact ih.trans ((List.suffix_cons u ts).trans (List.suffix_cons t _))
  | case2 => exact List.suffix_rfl
  | case3 => exact List.suffix_rfl

theorem loneGroup?_within {ts us body : List Token} (hw : Within ts us)
    (h : loneGroup? us = some body) : Within ts body := by
  unfold loneGroup? at h
  split at h
  · obtain rfl := Option.some.inj h
    exact hw.inside
  · split at h
    · obtain rfl := Option.some.inj h
      exact hw.inside
    · cases h
  · cases h

/-- The body of a macro call is one of its groups. -/
theorem body?_within {ts body : List Token} (h : body? ts = some body) : Within ts body := by
  unfold body? at h
  split at h
  · next t ts =>
    split at h
    · split at h
      · next u rest hdrop =>
        split at h
        · have hw : Within (t :: ts) (u :: rest) := by
            rw [← hdrop]
            exact Within.whole.suffix ((dropSegments_suffix ts).trans (List.suffix_cons t ts))
          exact loneGroup?_within hw.tail h
        · cases h
      · cases h
    · cases h
  · cases h

end MacroCall

namespace Source

variable {fs : FileSystem} {base path : Pathname} {ts us : List Token} {st st' : Session} {v : View}

/-! ### What is read -/

theorem fileName?_eq_some {t : Token} {s : String} (h : fileName? ts = some (t, s)) :
    ∃ more, ts = t :: more ∧ t.string? = some s := by
  cases ts with
  | nil => cases h
  | cons u more =>
    obtain ⟨_, hstring, heq⟩ := Option.map_eq_some_iff.mp h
    obtain ⟨rfl, rfl⟩ := Prod.mk.inj heq
    exact ⟨more, rfl, hstring⟩

theorem macroTokens_eq_ok (h : macroTokens fs path = .ok us) :
    ∃ text ts, fs.readText path = .ok text ∧ tokenize text = .ok ts ∧
      MacroCall.body? ts = some us := by
  unfold macroTokens at h
  split at h
  · split at h <;> cases h
  · next text htext =>
    split at h
    · cases h
    · next ts htokens =>
      split at h
      · next body hbody =>
        obtain rfl := Except.ok.inj h
        exact ⟨text, ts, htext, htokens, hbody⟩
      · cases h

theorem fileTokens_eq_ok (h : fileTokens fs path = .ok us) :
    ∃ text ts, fs.readText path = .ok text ∧ tokenize text = .ok ts ∧
      us = (MacroCall.body? ts).getD ts := by
  unfold fileTokens at h
  split at h
  · cases h
  · next text htext =>
    split at h
    · cases h
    · next ts htokens =>
      obtain rfl := Except.ok.inj h
      exact ⟨text, ts, htext, htokens, rfl⟩

/-- Tokens that are followed are a lone string, and the rest is read from the file that it names. -/
theorem follow_eq_ok (h : follow fs base ts = .ok us) :
    fileName? ts = none ∧ us = ts ∨
      ∃ t s, ts = [t] ∧ t.string? = some s ∧
        macroTokens fs (base.join (Pathname.ofString s)) = .ok us := by
  unfold follow at h
  split at h
  · next hname =>
    obtain rfl := Except.ok.inj h
    exact .inl ⟨hname, rfl⟩
  · next t s hname =>
    obtain ⟨more, rfl, hstring⟩ := fileName?_eq_some hname
    split at h
    · cases h
    · next hmore =>
      obtain rfl : more = [] := hmore
      dsimp only at h
      split at h
      · cases h
      · exact .inr ⟨t, s, rfl, hstring, h⟩

theorem view_eq_ok (h : view fs base ts st = (.ok v, st')) :
    ∃ us, follow fs base ts = .ok us ∧ Parse.root us st = .ok v st' := by
  unfold view at h
  split at h
  · cases h
  · next us hfollow =>
    split at h
    · next w st'' hroot =>
      obtain ⟨hv, rfl⟩ := Prod.mk.inj h
      obtain rfl := Except.ok.inj hv
      exact ⟨us, hfollow, hroot⟩
    · cases h

/-- A view was read from a source text, or from a file. -/
inductive Read (v : View) : Prop where
  | ofText {fs : FileSystem} {base : Pathname} {text : List Char} {st st' : Session}
      (h : viewOfText fs base text st = (.ok v, st'))
  | ofMacroFile {fs : FileSystem} {path : Pathname} {st st' : Session}
      (h : viewOfMacroFile fs path st = (.ok v, st'))
  | ofFile {fs : FileSystem} {path : Pathname} {st st' : Session}
      (h : viewOfFile fs path st = (.ok v, st'))

/-- Whatever is followed leads to tokens that stand in a source. -/
theorem within_of_follow {text : List Char} {whole : List Token} (htext : tokenize text = .ok whole)
    (hw : Within whole ts) (h : follow fs base ts = .ok us) :
    ∃ text whole, tokenize text = .ok whole ∧ Within whole us := by
  rcases follow_eq_ok h with ⟨-, rfl⟩ | ⟨t, s, -, -, hcall⟩
  · exact ⟨text, whole, htext, hw⟩
  · obtain ⟨text', whole', -, htokens, hbody⟩ := macroTokens_eq_ok hcall
    exact ⟨text', whole', htokens, MacroCall.body?_within hbody⟩

theorem getD_body?_within (ts : List Token) : Within ts ((MacroCall.body? ts).getD ts) := by
  cases hbody : MacroCall.body? ts with
  | none => exact .whole
  | some body => exact MacroCall.body?_within hbody

/-- A view was read, by the grammar, from tokens that stand in a source. -/
theorem Read.root (h : Read v) : ∃ text ts us st st', tokenize text = .ok ts ∧ Within ts us ∧
    Parse.root us st = .ok v st' := by
  obtain ⟨text, ts, us, fs, base, st, st', htext, hw, hview⟩ : ∃ text ts us fs base st st',
      tokenize text = .ok ts ∧ Within ts us ∧ view fs base us st = (.ok v, st') := by
    cases h with
    | @ofText fs base text st st' h =>
      unfold viewOfText at h
      split at h
      · cases h
      · next ts htokens => exact ⟨text, ts, ts, fs, base, st, st', htokens, .whole, h⟩
    | @ofMacroFile fs path st st' h =>
      unfold viewOfMacroFile at h
      split at h
      · cases h
      · next us hcall =>
        obtain ⟨text, ts, -, htokens, hbody⟩ := macroTokens_eq_ok hcall
        exact ⟨text, ts, us, fs, _, st, st', htokens, MacroCall.body?_within hbody, h⟩
    | @ofFile fs path st st' h =>
      unfold viewOfFile at h
      split at h
      · cases h
      · next us hfile =>
        obtain ⟨text, ts, -, htokens, rfl⟩ := fileTokens_eq_ok hfile
        exact ⟨text, ts, _, fs, _, st, st', htokens, getD_body?_within ts, h⟩
  obtain ⟨vs, hfollow, hroot⟩ := view_eq_ok hview
  obtain ⟨text', ts', htext', hw'⟩ := within_of_follow htext hw hfollow
  exact ⟨text', ts', vs, st, st', htext', hw', hroot⟩

/-! ### Origins -/

theorem origin_of_fileName? (h : fileTokens fs path = .ok ts) (hname : fileName? ts = none) :
    origin fs path = .ok path := by
  simp only [origin, h, hname]

theorem origin_of_string {t : Token} {s : String} (h : fileTokens fs path = .ok [t])
    (hs : t.string? = some s) : origin fs path = .ok (path.parent.join (Pathname.ofString s)) := by
  simp [origin, h, fileName?, hs]

/-- The tokens that hold a view in a file: the body of its macro call, or all tokens of a `bare`
file. -/
def Contents (bare : Prop) (ts us : List Token) : Prop :=
  MacroCall.body? ts = some us ∨ bare ∧ MacroCall.body? ts = none ∧ us = ts

theorem Contents.within {bare : Prop} (h : Contents bare ts us) : Within ts us := by
  rcases h with hbody | ⟨-, -, rfl⟩
  · exact MacroCall.body?_within hbody
  · exact .whole

/-- A view of a file was read from the file that is told as its origin: the grammar gives it for the
macro call there, or for all tokens if the origin is the file itself and no macro call. So the
positions in it are those of tokens of the origin. -/
theorem viewOfFile_origin (h : viewOfFile fs path st = (.ok v, st')) :
    ∃ p text ts us, origin fs path = .ok p ∧ fs.readText p = .ok text ∧ tokenize text = .ok ts ∧
      Contents (p = path) ts us ∧ Parse.root us st = .ok v st' ∧ View.places v ⊆ positions ts := by
  obtain ⟨found, hfile, hview⟩ : ∃ found, fileTokens fs path = .ok found ∧
      view fs path.parent found st = (.ok v, st') := by
    unfold viewOfFile at h
    split at h
    · cases h
    · next found hfile => exact ⟨found, hfile, h⟩
  obtain ⟨us, hfollow, hroot⟩ := view_eq_ok hview
  obtain ⟨p, text, ts, horigin, htext, htokens, hcontents⟩ : ∃ p text ts, origin fs path = .ok p ∧
      fs.readText p = .ok text ∧ tokenize text = .ok ts ∧ Contents (p = path) ts us := by
    rcases follow_eq_ok hfollow with ⟨hname, rfl⟩ | ⟨t, s, rfl, hs, hcall⟩
    · obtain ⟨text, ts, htext, htokens, heq⟩ := fileTokens_eq_ok hfile
      refine ⟨path, text, ts, origin_of_fileName? hfile hname, htext, htokens, ?_⟩
      cases hbody : MacroCall.body? ts with
      | none => exact .inr ⟨rfl, hbody, by rw [heq, hbody, Option.getD_none]⟩
      | some body => exact .inl (by rw [hbody, heq, hbody, Option.getD_some])
    · obtain ⟨text, ts, htext, htokens, hbody⟩ := macroTokens_eq_ok hcall
      exact ⟨_, text, ts, origin_of_string hfile hs, htext, htokens, .inl hbody⟩
  refine ⟨p, text, ts, us, horigin, htext, htokens, hcontents, hroot, ?_⟩
  exact List.Subset.trans (Parse.root_places hroot) hcontents.within.positions_subset

/-- A file names another one by an absolute name, and the view there begins on the second line. -/
theorem viewOfFile_origin_sample :
    let outer := Text.Utf8.encode "view! \x7b \"/b/inner\" \x7d".toList
    let text := "view! \x7b\ngtk::Box { spacing: 1 } \x7d".toList
    let fs : FileSystem := {
      nodes := ⟨[(["a", "outer"], .file outer), (["b"], .directory),
        (["b", "inner"], .file (Text.Utf8.encode text))]⟩
      cwd := ["a"] }
    ∃ v st' ts, viewOfFile fs (Pathname.ofString "outer") {} = (.ok v, st') ∧
      origin fs (Pathname.ofString "outer") = .ok (Pathname.ofString "/b/inner") ∧
        tokenize text = .ok ts ∧
      View.places v = [(2, 1), (2, 1), (2, 21)] ∧ View.places v ⊆ positions ts := by
  intro outer text fs
  obtain ⟨v, hv, hplaces⟩ : ∃ v, (viewOfFile fs (Pathname.ofString "outer") {}).1 = .ok v ∧
      decide (View.places v = [(2, 1), (2, 1), (2, 21)]) = true :=
        exists_ok_of_any (by decide +kernel)
  have h : viewOfFile fs (Pathname.ofString "outer") {} =
      (.ok v, (viewOfFile fs (Pathname.ofString "outer") {}).2) := by rw [← hv]
  obtain ⟨p, text', ts, us, horigin, htext, htokens, -, -, hsub⟩ := viewOfFile_origin h
  obtain ⟨q, hq, hname⟩ : ∃ q, origin fs (Pathname.ofString "outer") = .ok q ∧
      decide (q = Pathname.ofString "/b/inner") = true := exists_ok_of_any (by decide +kernel)
  obtain rfl := of_decide_eq_true hname
  obtain rfl : p = Pathname.ofString "/b/inner" := Except.ok.inj (horigin.symm.trans hq)
  have hread : fs.readText (Pathname.ofString "/b/inner") = .ok text := by decide +kernel
  obtain rfl : text' = text := Except.ok.inj (htext.symm.trans hread)
  exact ⟨v, _, ts, h, hq, htokens, of_decide_eq_true hplaces, hsub⟩

end Source

end WidgetView
