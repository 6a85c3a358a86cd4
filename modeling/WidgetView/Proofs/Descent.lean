import WidgetView.Proofs.Acceptance

/-!
# Induction over a descent

The descent through declarations and bodies, as a principle of induction. What holds of the empty
body, and of a body if it holds of what follows the first entry and of the body of that entry in
case it is a widget, holds of every body that is read. A view is read as a body with the view as its
one entry.
-/
namespace WidgetView.Parse

/-- A relation of bodies and their entries that is passed on from the parts of a body to the
whole. -/
structure Descends (R : List Token → List Entry → Prop) : Prop where
  nil : R [] []
  child {stop : Nat × Nat} {ts : List Token} {d : Declaration} {sh : Shell} {generated : String}
    {found more : List Entry} (hd : declaration stop ts = .ok d) (hs : d.shell = .ok sh)
    (hbody : R sh.body found) (hmore : R (skipComma sh.rest) more) :
    R ts (.child (d.view generated sh.init found) :: more)
  plain {stop : Nat × Nat} {sort : WidgetSort} {t : Token} {ts rest : List Token} {name : String}
    {e : Entry} {more : List Entry} (ht : t.ident? = some name)
    (he : plainEntry stop sort name t.span.position ts = .ok (e, rest))
    (hmore : R (skipComma rest) more) : R (t :: ts) (e :: more)

variable {R : List Token → List Entry → Prop}

mutual

theorem Descends.declared (hR : Descends R) (d : Declaration) (st st' : Session) (v : View)
    (h : declared d st = .ok v st') :
    ∃ sh generated found, d.shell = .ok sh ∧ R sh.body found ∧
      v = d.view generated sh.init found := by
  obtain ⟨sh, found, st₁, hs, hf, rfl, -⟩ := declared_eq_ok h
  have hbody : d.body = sh.body := by rw [Declaration.body, hs]
  refine ⟨sh, _, found, hs, ?_, rfl⟩
  rw [← hbody]
  exact hR.entries d.path.sort sh.bodyStop d.body _ st₁ found hf
termination_by 2 * sizeOf d.body + 1

theorem Descends.entries (hR : Descends R) (sort : WidgetSort) (stop : Nat × Nat) (ts : List Token)
    (st st' : Session) (found : List Entry) (h : entries sort stop ts st = .ok found st') :
    R ts found := by
  match ts, h with
  | [], h =>
    rw [Parse.entries] at h
    obtain ⟨rfl, -⟩ := Step.pure_eq_ok.mp h
    exact hR.nil
  | t :: us, h =>
    rcases entries_cons_eq_ok h with ⟨-, d, v, st₁, more, hd, hv, hm, rfl⟩ |
      ⟨-, name, e, rest, more, hi, hp, hm, rfl⟩
    · obtain ⟨sh, generated, found, hs, hbody, rfl⟩ := hR.declared d st st₁ v hv
      have hmore := hR.entries sort stop (skipComma d.rest) st₁ st' more hm
      have hrest : d.rest = sh.rest := by rw [Declaration.rest, hs]
      rw [hrest] at hmore
      exact hR.child hd hs hbody hmore
    · exact hR.plain hi hp (hR.entries sort stop (skipComma rest) st st' more hm)
termination_by 2 * sizeOf ts
decreasing_by
  · have := (declaration_skipComma_within hd).1
    omega
  · have := (declaration_skipComma_within hd).2
    omega
  · have := plainEntry_skipComma_within hp t
    omega

end

theorem Descends.root (hR : Descends R) {ts : List Token} {st st' : Session} {v : View}
    (h : root ts st = .ok v st') : R ts [.child v] := by
  obtain ⟨d, hd, hv⟩ := root_eq_ok h
  obtain ⟨sh, generated, found, hs, hbody, rfl⟩ := hR.declared d st st' v hv
  have hend : skipComma sh.rest = [] := by
    rw [← ((root_eq_ok_iff hd).mp h).2, Declaration.rest, hs]
  refine hR.child hd hs hbody ?_
  rw [hend]
  exact hR.nil

end WidgetView.Parse
