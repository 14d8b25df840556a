import Mathlib.Data.List.Basic

/-!
# Links

A link takes items from one party to another one, in the order in which they are put on it.  It may
be up or down: what is put on a link that is down is lost, and so is what is on a link when it goes
down.  As long as neither happens nothing is lost.
-/

namespace Async

/-- A link: whether it is up, and the items that are on it. -/
structure Link (α : Type*) where
  up : Bool
  inFlight : List α
  deriving DecidableEq

namespace Link

variable {α : Type*}

/-- A link that has not come up. -/
def down : Link α :=
  ⟨false, []⟩

/-- The link comes up. -/
def connect (l : Link α) : Link α :=
  { l with up := true }

/-- Put items on the link. -/
def put (l : Link α) (xs : List α) : Link α :=
  if l.up then { l with inFlight := l.inFlight ++ xs } else l

/-- Take the first items off the link: at most `n`, when there are as many. -/
def deliver (l : Link α) (n : ℕ) : List α × Link α :=
  (l.inFlight.take n, { l with inFlight := l.inFlight.drop n })

@[simp]
theorem up_put (l : Link α) (xs : List α) :
  (l.put xs).up = l.up
  := by
  rw [put]
  split <;> rfl

theorem inFlight_put {l : Link α} (h : l.up = true) (xs : List α) :
  (l.put xs).inFlight = l.inFlight ++ xs
  := by rw [put, if_pos h]

theorem put_of_down {l : Link α} (h : l.up = false) (xs : List α) :
  l.put xs = l
  := by
  rw [put, h]
  rfl

end Link

/-- What happens to a link: it comes up; it goes down; items are put on it; the first of those that
are on it are delivered. -/
inductive LinkEvent (α : Type*) where
  | connect
  | cut
  | put : List α → LinkEvent α
  | deliver : ℕ → LinkEvent α

/-- A transfer over a link: the link, what has been sent over it, and what has been got. -/
structure Transfer (α : Type*) where
  link : Link α
  sent : List α
  got : List α

namespace Transfer

variable {α : Type*}

/-- Nothing has been sent, and the link has not come up. -/
def new : Transfer α :=
  ⟨Link.down, [], []⟩

/-- The transfer once something happens to its link. -/
def act (t : Transfer α) : LinkEvent α → Transfer α
  | .connect => { t with link := t.link.connect }
  | .cut => { t with link := Link.down }
  | .put xs => { t with link := t.link.put xs, sent := t.sent ++ xs }
  | .deliver n => { t with link := (t.link.deliver n).2, got := t.got ++ (t.link.deliver n).1 }

/-- What has been got, and then what is on the link, is among what has been sent, in order. -/
def Carries (t : Transfer α) : Prop :=
  (t.got ++ t.link.inFlight).Sublist t.sent

/-- What has been got, and then what is on the link, is all that has been sent. -/
def Keeps (t : Transfer α) : Prop :=
  t.got ++ t.link.inFlight = t.sent

/-- What happens loses nothing: what is put on the link is put while it is up, and nothing is on it
when it goes down. -/
def Safe (t : Transfer α) : LinkEvent α → Prop
  | .put xs => t.link.up = true ∨ xs = []
  | .cut => t.link.inFlight = []
  | _ => True

theorem act_put_nil (t : Transfer α) :
  t.act (.put []) = t
  := by
  cases t with
  | mk link sent got =>
      cases link with
      | mk up inFlight => cases up <;> simp [act, Link.put]

theorem Carries.new :
  (new : Transfer α).Carries
  := List.Sublist.refl _

theorem Keeps.new :
  (new : Transfer α).Keeps
  := rfl

/-- Whatever happens to a link, nothing is got that was not sent, and nothing twice or out of
order. -/
theorem Carries.act {t : Transfer α} (h : t.Carries) (e : LinkEvent α) :
  (t.act e).Carries
  := by
  cases e with
  | connect => exact h
  | cut =>
      change (t.got ++ []).Sublist t.sent
      rw [List.append_nil]
      exact (List.sublist_append_left t.got t.link.inFlight).trans h
  | put xs =>
      change (t.got ++ (t.link.put xs).inFlight).Sublist (t.sent ++ xs)
      cases hup : t.link.up with
      | true =>
          rw [Link.inFlight_put hup, ← List.append_assoc]
          apply List.Sublist.append_right h
      | false =>
          rw [Link.put_of_down hup]
          apply h.trans
          apply List.sublist_append_left
  | deliver n =>
      change (t.got ++ t.link.inFlight.take n ++ t.link.inFlight.drop n).Sublist t.sent
      rw [List.append_assoc, List.take_append_drop]
      exact h

/-- A link on which nothing is lost keeps all. -/
theorem Keeps.act {t : Transfer α} (h : t.Keeps) {e : LinkEvent α} (he : t.Safe e) :
  (t.act e).Keeps
  := by
  cases e with
  | connect => exact h
  | cut =>
      change t.got ++ [] = t.sent
      rw [Keeps, (he : t.link.inFlight = [])] at h
      exact h
  | put xs =>
      change t.got ++ (t.link.put xs).inFlight = t.sent ++ xs
      rw [Keeps] at h
      rcases he with hup | rfl
      · rw [Link.inFlight_put hup, ← List.append_assoc, h]
      · rw [List.append_nil, ← h]
        cases hup : t.link.up with
        | true => rw [Link.inFlight_put hup, List.append_nil]
        | false => rw [Link.put_of_down hup]
  | deliver n =>
      change t.got ++ t.link.inFlight.take n ++ t.link.inFlight.drop n = t.sent
      rw [List.append_assoc, List.take_append_drop]
      exact h

/-- What has been got was sent, in order. -/
theorem Carries.sublist {t : Transfer α} (h : t.Carries) :
  t.got.Sublist t.sent
  := (List.sublist_append_left t.got t.link.inFlight).trans h

/-- What has been got over a link that keeps all is what was sent first. -/
theorem Keeps.isPrefix {t : Transfer α} (h : t.Keeps) :
  t.got <+: t.sent
  := ⟨t.link.inFlight, h⟩

/-- It is all that was sent when nothing is on the link. -/
theorem Keeps.got_eq {t : Transfer α} (h : t.Keeps) (hnil : t.link.inFlight = []) :
  t.got = t.sent
  := by
  rw [Keeps, hnil, List.append_nil] at h
  exact h

/-! ### Links that do not come up again -/

/-- A transfer over a link that is up. -/
def opened : Transfer α :=
  ⟨⟨true, []⟩, [], []⟩

/-- What has been got, and then what is on the link, is what was sent first, and all of it while the
link is up. -/
structure Steady (t : Transfer α) : Prop where
  isPrefix : t.got ++ t.link.inFlight <+: t.sent
  keeps : t.link.up = true → t.Keeps

theorem Steady.opened :
  (opened : Transfer α).Steady
  := ⟨List.prefix_rfl, fun _ => rfl⟩

/-- What comes after something that is lost is lost too, as long as the link does not come up
again. -/
theorem Steady.act {t : Transfer α} (h : t.Steady) {e : LinkEvent α} (he : e ≠ .connect) :
  (t.act e).Steady
  := by
  cases e with
  | connect => cases he rfl
  | cut =>
      refine ⟨?_, fun hup => absurd hup Bool.false_ne_true⟩
      change t.got ++ [] <+: t.sent
      rw [List.append_nil]
      exact (List.prefix_append _ _).trans h.isPrefix
  | put xs =>
      cases hup : t.link.up with
      | true =>
          have hkeeps : (t.act (.put xs)).Keeps := (h.keeps hup).act (Or.inl hup)
          exact ⟨⟨[], (List.append_nil _).trans hkeeps⟩, fun _ => hkeeps⟩
      | false =>
          constructor
          · change t.got ++ (t.link.put xs).inFlight <+: t.sent ++ xs
            rw [Link.put_of_down hup]
            exact h.isPrefix.trans (List.prefix_append _ _)
          · intro hup'
            change (t.link.put xs).up = true at hup'
            rw [Link.up_put, hup] at hup'
            cases hup'
  | deliver n =>
      constructor
      · change t.got ++ t.link.inFlight.take n ++ t.link.inFlight.drop n <+: t.sent
        rw [List.append_assoc, List.take_append_drop]
        exact h.isPrefix
      · intro hup
        apply (h.keeps hup).act
        trivial

theorem Steady.got_isPrefix {t : Transfer α} (h : t.Steady) :
  t.got <+: t.sent
  := (List.prefix_append _ _).trans h.isPrefix

/-- What is left of a transfer when its link may have gone down. -/
def Remains (t t' : Transfer α) : Prop :=
  t' = t ∨ t' = t.act .cut

theorem Remains.sent {t t' : Transfer α} (h : t.Remains t') :
  t'.sent = t.sent
  := by
  rcases h with rfl | rfl <;> rfl

theorem Remains.got {t t' : Transfer α} (h : t.Remains t') :
  t'.got = t.got
  := by
  rcases h with rfl | rfl <;> rfl

theorem Remains.inFlight {t t' : Transfer α} (h : t.Remains t') (hnil : t.link.inFlight = []) :
  t'.link.inFlight = []
  := by
  rcases h with rfl | rfl
  · exact hnil
  · rfl

theorem Remains.steady {t t' : Transfer α} (h : t.Remains t') (hs : t.Steady) :
  t'.Steady
  := by
  rcases h with rfl | rfl
  · exact hs
  · apply hs.act
    intro he
    cases he

end Transfer

end Async
