import MockRedirect.Store.Mocks
/-! Calls: the operations on the stored mocks as data, and what many of them one after the other can
make of a store. -/
namespace MockRedirect

/-- An operation with its arguments. Where ids are drawn at random, the draws are arguments too. -/
inductive Call where
  | seed
  | list
  | get (id : MockId)
  | save (m : Mock)
  | saveDraft (d : Draft) (drawn : MockId)
  | addAll (ds : List Draft) (draw : Nat → MockId)
  | toggle (id : MockId)
  | delete (id : MockId)
  | deleteAll
  | globalEnabled
  | setGlobal (on : Bool)
  | updateVerb (id : MockId) (verb : Verb)
  | updateUrl (id : MockId) (url : String)
  | updateField (id : MockId) (path raw : String)
  | pushItem (id : MockId) (path : String)
  | removeItem (id : MockId) (path : String) (i : Nat)

namespace Call

/-- What a call answers if it succeeds. -/
def Answer : Call → Type
  | seed | delete _ | deleteAll | setGlobal _ => Unit
  | list | addAll _ _ => List Mock
  | get _ | save _ | saveDraft _ _ | updateVerb _ _ | updateField _ _ _ | pushItem _ _
  | removeItem _ _ _ => Mock
  | toggle _ | globalEnabled | updateUrl _ _ => Bool

def operation : (c : Call) → Store.Operation c.Answer
  | seed => Mocks.seed
  | list => Mocks.list
  | get id => Mocks.get id
  | save m => Mocks.save m
  | saveDraft d drawn => Mocks.saveDraft d drawn
  | addAll ds draw => Mocks.addAll ds draw
  | toggle id => Mocks.toggle id
  | delete id => Mocks.delete id
  | deleteAll => Mocks.deleteAll
  | globalEnabled => Mocks.globalEnabled
  | setGlobal on => Mocks.setGlobal on
  | updateVerb id verb => Mocks.updateVerb id verb
  | updateUrl id url => Mocks.updateUrl id url
  | updateField id path raw => Mocks.updateField id path raw
  | pushItem id path => Mocks.pushItem id path
  | removeItem id path i => Mocks.removeItem id path i

end Call

namespace Store

/-- The store after a call. -/
def after (s : Store) (writable : Bool) (c : Call) : Store := (s.attempt writable c.operation).2

/-- The stores that calls can lead to, each of them allowed on the entries it finds. The file, if there
is one, may be writable at one call and not at the next. -/
inductive Reaches (allowed : Call → Members → Prop) (s : Store) : Store → Prop
  | refl : Reaches allowed s s
  | step {t : Store} (h : Reaches allowed s t) (writable : Bool) {c : Call}
    (hc : allowed c t.entries) : Reaches allowed s (t.after writable c)

/-- What holds at the start and is kept by each call holds all along. -/
theorem Reaches.invariant {allowed : Call → Members → Prop} {s t : Store} {inv : Store → Prop}
    (h : Reaches allowed s t) (hs : inv s)
    (hstep : ∀ t writable c, inv t → allowed c t.entries → inv (t.after writable c)) : inv t := by
  induction h with
  | refl => exact hs
  | step _ writable hc ih => exact hstep _ writable _ ih hc

end Store
end MockRedirect
