import Kitty.Base.Bytes
import Mathlib.Data.List.Defs
import Std.Data.ExtTreeMap.Lemmas

/-!
# Sessions of the dashboard

`create_session`, `validate_session` and `remove_session` of
`src/signaling-server/signaling_server.cpp:216–276`, each under `session_mutex`. A session ends
an hour after it was last looked at, and it is only then looked at whether it has ended.
-/

namespace Kitty.Web

open Kitty.Base

/-- `SESSION_TIMEOUT`. -/
def sessionTimeout : Int := 3600

/-- `Session`. -/
structure Session where
  createdAt : Int
  lastAccess : Int
  deriving DecidableEq

/-- `active_sessions`. -/
abbrev Sessions := Std.ExtTreeMap Bytes Session

/-- `create_session`, with the token that was generated. -/
def createSession (s : Sessions) (token : Bytes) (now : Int) : Sessions :=
  s.insert token ⟨now, now⟩

/-- `validate_session`. -/
def validateSession (s : Sessions) (token : Bytes) (now : Int) : Bool × Sessions :=
  if token = [] then (false, s)
  else
    match s[token]? with
    | none => (false, s)
    | some session =>
      if sessionTimeout < now - session.lastAccess then (false, s.erase token)
      else (true, s.insert token { session with lastAccess := now })

/-- `remove_session`. -/
def removeSession (s : Sessions) (token : Bytes) : Sessions := s.erase token

/-- What is done with a token. -/
inductive SessionOp where
  | create (token : Bytes)
  | validate (token : Bytes)
  | remove (token : Bytes)
  deriving DecidableEq

/-- The token. -/
def SessionOp.token : SessionOp → Bytes
  | .create token | .validate token | .remove token => token

/-- An operation, and the clock when it is done. -/
structure SessionEvent where
  time : Int
  op : SessionOp
  deriving DecidableEq

/-- The sessions behind an event. -/
def SessionEvent.apply (s : Sessions) (e : SessionEvent) : Sessions :=
  match e.op with
  | .create token => createSession s token e.time
  | .validate token => (validateSession s token e.time).2
  | .remove token => removeSession s token

/-- The sessions behind one event after the other. -/
def afterEvents (s : Sessions) (es : List SessionEvent) : Sessions := es.foldl SessionEvent.apply s

/-- The tokens that are generated. -/
def createdTokens (es : List SessionEvent) : List Bytes :=
  es.filterMap fun e ↦ match e.op with
    | .create token => some token
    | _ => none

/-- The token is not generated. -/
def NotCreated (token : Bytes) (es : List SessionEvent) : Prop := ∀ e ∈ es, e.op ≠ .create token

/-- When a token is validated. -/
def validations (token : Bytes) (es : List SessionEvent) : List Int :=
  (es.filter fun e ↦ decide (e.op = .validate token)).map SessionEvent.time

/-- A session of the token is open at a time behind the events: it was created, it was not removed
since, and it was never left alone for longer than the timeout. -/
def SessionOpen (token : Bytes) (es : List SessionEvent) (t : Int) : Prop :=
  token ≠ [] ∧ ∃ pre created post, es = pre ++ ⟨created, .create token⟩ :: post ∧
    (∀ e ∈ post, e.op ≠ .remove token) ∧
    List.IsChain (fun a b ↦ b - a ≤ sessionTimeout) (created :: (validations token post ++ [t]))

/-! ### One event -/

section Apply

variable {s : Sessions} {token : Bytes} {e : SessionEvent}

/-- What is done with one token leaves another one's session alone. -/
theorem getElem?_apply_of_ne (h : e.op.token ≠ token) : (e.apply s)[token]? = s[token]? := by
  obtain ⟨time, op⟩ := e
  cases op with
  | create other =>
    have hne : other ≠ token := h
    simp [SessionEvent.apply, createSession, Std.ExtTreeMap.getElem?_insert, hne]
  | validate other =>
    have hne : other ≠ token := h
    simp only [SessionEvent.apply, validateSession]
    split
    · rfl
    · split
      · rfl
      · split
        · simp [Std.ExtTreeMap.getElem?_erase, hne]
        · simp [Std.ExtTreeMap.getElem?_insert, hne]
  | remove other =>
    have hne : other ≠ token := h
    simp [SessionEvent.apply, removeSession, Std.ExtTreeMap.getElem?_erase, hne]

/-- A token without a session has none until it is created. -/
theorem getElem?_apply_of_none (hs : s[token]? = none) (h : e.op ≠ .create token) :
    (e.apply s)[token]? = none := by
  by_cases ht : e.op.token = token
  · obtain ⟨time, op⟩ := e
    cases op with
    | create other => exact absurd (congrArg SessionOp.create ht) h
    | validate other =>
      cases ht
      simp only [SessionEvent.apply, validateSession, SessionOp.token] at hs ⊢
      rw [hs]
      split <;> exact hs
    | remove other =>
      cases ht
      exact Std.ExtTreeMap.getElem?_erase_self
  · rw [getElem?_apply_of_ne ht, hs]

/-- The outcome of a validation depends on the session of its token only. -/
theorem validateSession_congr {u : Sessions} (h : s[token]? = u[token]?) (t : Int) :
    (validateSession s token t).1 = (validateSession u token t).1 := by
  unfold validateSession
  rw [h]
  split
  · rfl
  · split
    · rfl
    · split <;> rfl

/-- Without a session a validation fails. -/
theorem validateSession_of_none (hs : s[token]? = none) (t : Int) :
    (validateSession s token t).1 = false := by
  unfold validateSession
  rw [hs]
  split <;> rfl

/-- With a session it succeeds before the timeout. -/
theorem validateSession_of_some {session : Session} (htoken : token ≠ [])
    (hs : s[token]? = some session) (t : Int) :
    (validateSession s token t).1 = true ↔ t - session.lastAccess ≤ sessionTimeout := by
  unfold validateSession
  rw [if_neg htoken, hs]
  dsimp only
  split
  · next h => exact iff_of_false Bool.false_ne_true (by omega)
  · next h => exact iff_of_true rfl (by omega)

/-- When it fails, or the token is removed, there is no session any more. -/
theorem getElem?_apply_of_ended
    (h : e.op = .remove token ∨
      e.op = .validate token ∧ token ≠ [] ∧ (validateSession s token e.time).1 = false) :
    (e.apply s)[token]? = none := by
  obtain ⟨time, op⟩ := e
  rcases h with h | ⟨h, htoken, hfail⟩
  · cases h
    exact Std.ExtTreeMap.getElem?_erase_self
  · cases h
    simp only [SessionEvent.apply] at hfail ⊢
    unfold validateSession at hfail ⊢
    rw [if_neg htoken] at hfail ⊢
    split
    · next hs => exact hs
    · next session hs =>
      rw [hs] at hfail
      dsimp only at hfail
      split at hfail
      · next hlate =>
        rw [if_pos hlate]
        exact Std.ExtTreeMap.getElem?_erase_self
      · cases hfail

end Apply

/-! ### Many events -/

@[simp] theorem afterEvents_nil (s : Sessions) : afterEvents s [] = s := rfl

@[simp] theorem afterEvents_cons (s : Sessions) (e : SessionEvent) (es : List SessionEvent) :
    afterEvents s (e :: es) = afterEvents (e.apply s) es := rfl

theorem afterEvents_append (s : Sessions) (es fs : List SessionEvent) :
    afterEvents s (es ++ fs) = afterEvents (afterEvents s es) fs := List.foldl_append

/-- A token without a session has none while it is not created. -/
theorem getElem?_afterEvents_of_none {s : Sessions} {token : Bytes} (hs : s[token]? = none)
    {es : List SessionEvent} (h : NotCreated token es) : (afterEvents s es)[token]? = none := by
  induction es generalizing s with
  | nil => exact hs
  | cons e es ih =>
    exact ih (getElem?_apply_of_none hs (h e List.mem_cons_self))
      fun f hf ↦ h f (List.mem_cons_of_mem _ hf)

/-- What is done with other tokens could as well not be done. -/
theorem getElem?_afterEvents_filter {s u : Sessions} {token : Bytes} (hs : s[token]? = u[token]?)
    (es : List SessionEvent) : (afterEvents s es)[token]? =
      (afterEvents u (es.filter fun e ↦ decide (e.op.token = token)))[token]? := by
  induction es generalizing s u with
  | nil => exact hs
  | cons e es ih =>
    by_cases h : e.op.token = token
    · rw [List.filter_cons_of_pos (by simpa using h), afterEvents_cons, afterEvents_cons]
      apply ih
      obtain ⟨time, op⟩ := e
      -- The session is made, looked at or dropped by itself.
      cases op with
      | create other =>
        cases h
        exact Std.ExtTreeMap.getElem?_insert_self.trans Std.ExtTreeMap.getElem?_insert_self.symm
      | validate other =>
        cases h
        simp only [SessionEvent.apply, SessionOp.token] at hs ⊢
        unfold validateSession
        rw [hs]
        split
        · exact hs
        · split
          · exact hs
          · split
            · exact Std.ExtTreeMap.getElem?_erase_self.trans
                Std.ExtTreeMap.getElem?_erase_self.symm
            · exact Std.ExtTreeMap.getElem?_insert_self.trans
                Std.ExtTreeMap.getElem?_insert_self.symm
      | remove other =>
        cases h
        exact Std.ExtTreeMap.getElem?_erase_self.trans Std.ExtTreeMap.getElem?_erase_self.symm
    · rw [List.filter_cons_of_neg (by simpa using h), afterEvents_cons]
      exact ih ((getElem?_apply_of_ne h).trans hs)

/-- A session stays open as long as it is not removed and never left alone for too long. -/
theorem validateSession_afterEvents {s : Sessions} {token : Bytes} (htoken : token ≠ [])
    {session : Session} (hs : s[token]? = some session) {es : List SessionEvent}
    (h : NotCreated token es) (t : Int) :
    (validateSession (afterEvents s es) token t).1 = true ↔
      (∀ e ∈ es, e.op ≠ .remove token) ∧
        List.IsChain (fun a b ↦ b - a ≤ sessionTimeout)
          (session.lastAccess :: (validations token es ++ [t])) := by
  induction es generalizing s session with
  | nil =>
    rw [afterEvents_nil, validateSession_of_some htoken hs]
    simp [validations]
  | cons e es ih =>
    have hrest : NotCreated token es := fun f hf ↦ h f (List.mem_cons_of_mem _ hf)
    rw [afterEvents_cons, List.forall_mem_cons]
    by_cases hvalidate : e.op = .validate token
    · have htimes : validations token (e :: es) = e.time :: validations token es := by
        simp [validations, hvalidate]
      rw [htimes, List.cons_append, List.isChain_cons_cons, hvalidate]
      have hstep := validateSession_of_some htoken hs e.time
      by_cases hlate : e.time - session.lastAccess ≤ sessionTimeout
      · have hkeep : (e.apply s)[token]? = some { session with lastAccess := e.time } := by
          simp only [SessionEvent.apply, hvalidate, validateSession, if_neg htoken, hs,
            if_neg (Int.not_lt.mpr hlate)]
          exact Std.ExtTreeMap.getElem?_insert_self
        rw [ih hkeep hrest]
        simp [hlate]
      · have hfail : (validateSession s token e.time).1 = false := by
          simpa using (not_congr hstep).mpr hlate
        have hended := getElem?_apply_of_ended (.inr ⟨hvalidate, htoken, hfail⟩)
        rw [validateSession_of_none (getElem?_afterEvents_of_none hended hrest)]
        simp [hlate]
    · have htimes : validations token (e :: es) = validations token es := by
        simp [validations, hvalidate]
      rw [htimes]
      by_cases hremove : e.op = .remove token
      · have hended := getElem?_apply_of_ended (s := s) (.inl hremove)
        rw [validateSession_of_none (getElem?_afterEvents_of_none hended hrest)]
        simp [hremove]
      · have hother : e.op.token ≠ token := by
          intro heq
          obtain ⟨time, op⟩ := e
          cases op with
          | create other => exact h _ List.mem_cons_self (congrArg SessionOp.create heq)
          | validate other => exact hvalidate (congrArg SessionOp.validate heq)
          | remove other => exact hremove (congrArg SessionOp.remove heq)
        rw [ih ((getElem?_apply_of_ne hother).trans hs) hrest]
        simp [hremove]

/-! ### Tokens that are generated once -/

theorem mem_createdTokens {token : Bytes} {es : List SessionEvent} :
    token ∈ createdTokens es ↔ ∃ e ∈ es, e.op = .create token := by
  rw [createdTokens, List.mem_filterMap]
  apply exists_congr
  intro e
  apply and_congr_right
  intro _
  cases e.op <;> simp

theorem notCreated_iff {token : Bytes} {es : List SessionEvent} :
    NotCreated token es ↔ token ∉ createdTokens es := by
  rw [mem_createdTokens]
  simp [NotCreated]

/-- A token that was generated is not generated again. -/
theorem notCreated_of_nodup {pre post : List SessionEvent} {e : SessionEvent} {token : Bytes}
    (h : (createdTokens (pre ++ e :: post)).Nodup) (he : e.op = .create token) :
    NotCreated token post := by
  have hsplit : createdTokens (pre ++ e :: post) =
      createdTokens pre ++ token :: createdTokens post := by
    simp [createdTokens, List.filterMap_append, he]
  rw [hsplit, List.nodup_append, List.nodup_cons] at h
  exact notCreated_iff.mpr h.2.1.1

/-- A session that has ended is not opened again. -/
theorem validateSession_of_ended {pre post : List SessionEvent} {e : SessionEvent} {token : Bytes}
    (h : (createdTokens (pre ++ e :: post)).Nodup) (hcreated : token ∈ createdTokens pre)
    (hended : e.op = .remove token ∨
      e.op = .validate token ∧ (validateSession (afterEvents ∅ pre) token e.time).1 = false)
    (t : Int) : (validateSession (afterEvents ∅ (pre ++ e :: post)) token t).1 = false := by
  by_cases htoken : token = []
  · rw [validateSession, if_pos htoken]
  · have hpost : NotCreated token post := by
      rw [notCreated_iff]
      intro hmem
      have hsplit : createdTokens (pre ++ e :: post) =
          createdTokens pre ++ createdTokens (e :: post) := List.filterMap_append
      rw [hsplit, List.nodup_append] at h
      refine h.2.2 _ hcreated _ ?_ rfl
      obtain ⟨f, hf, hop⟩ := mem_createdTokens.mp hmem
      exact mem_createdTokens.mpr ⟨f, List.mem_cons_of_mem _ hf, hop⟩
    apply validateSession_of_none
    rw [afterEvents_append, afterEvents_cons]
    apply getElem?_afterEvents_of_none _ hpost
    apply getElem?_apply_of_ended
    rcases hended with hremove | ⟨hvalidate, hfail⟩
    · exact .inl hremove
    · exact .inr ⟨hvalidate, htoken, hfail⟩

/-- Behind its creation a session is the one created. -/
theorem validateSession_created {pre post : List SessionEvent} {token : Bytes}
    (htoken : token ≠ []) (created : Int) (hpost : NotCreated token post) (t : Int) :
    (validateSession (afterEvents ∅ (pre ++ ⟨created, .create token⟩ :: post)) token t).1 = true ↔
      (∀ e ∈ post, e.op ≠ .remove token) ∧
        List.IsChain (fun a b ↦ b - a ≤ sessionTimeout)
          (created :: (validations token post ++ [t])) := by
  have hs : (SessionEvent.apply (afterEvents ∅ pre) ⟨created, .create token⟩)[token]? =
      some ⟨created, created⟩ := Std.ExtTreeMap.getElem?_insert_self
  rw [afterEvents_append, afterEvents_cons]
  exact validateSession_afterEvents htoken hs hpost t

/-- Whether a validation succeeds is whether the session is open. -/
theorem validateSession_iff {es : List SessionEvent} (h : (createdTokens es).Nodup) (token : Bytes)
    (t : Int) :
    (validateSession (afterEvents ∅ es) token t).1 = true ↔ SessionOpen token es t := by
  constructor
  · intro hvalid
    have htoken : token ≠ [] := by
      rintro rfl
      rw [validateSession, if_pos rfl] at hvalid
      exact Bool.false_ne_true hvalid
    have hcreated : token ∈ createdTokens es := by
      by_contra hnot
      have hnone : (afterEvents ∅ es)[token]? = none :=
        getElem?_afterEvents_of_none Std.ExtTreeMap.getElem?_empty (notCreated_iff.mpr hnot)
      rw [validateSession_of_none hnone] at hvalid
      exact Bool.false_ne_true hvalid
    obtain ⟨⟨created, op⟩, he, hop⟩ := mem_createdTokens.mp hcreated
    obtain ⟨pre, post, rfl⟩ := List.append_of_mem he
    cases hop
    have hopen := (validateSession_created htoken created (notCreated_of_nodup h rfl) t).mp hvalid
    exact ⟨htoken, pre, created, post, rfl, hopen⟩
  · rintro ⟨htoken, pre, created, post, rfl, hopen⟩
    exact (validateSession_created htoken created (notCreated_of_nodup h rfl) t).mpr hopen

/-! ### The sessions of a run -/

/-- The outcome of a validation, in any run in which every token is generated once: it succeeds
exactly when the session is open; it fails once one has failed behind the creation, or the token
was removed; and what was done with other tokens does not matter. -/
theorem validateSession_run {es : List SessionEvent} (h : (createdTokens es).Nodup) (token : Bytes)
    (t : Int) :
    ((validateSession (afterEvents ∅ es) token t).1 = true ↔ SessionOpen token es t) ∧
      (∀ pre e post, es = pre ++ e :: post → token ∈ createdTokens pre →
        (e.op = .remove token ∨
          e.op = .validate token ∧ (validateSession (afterEvents ∅ pre) token e.time).1 = false) →
        (validateSession (afterEvents ∅ es) token t).1 = false) ∧
      (validateSession (afterEvents ∅ es) token t).1 = (validateSession (afterEvents ∅
        (es.filter fun e ↦ decide (e.op.token = token))) token t).1 := by
  refine ⟨validateSession_iff h token t, ?_, ?_⟩
  · rintro pre e post rfl hcreated hended
    exact validateSession_of_ended h hcreated hended t
  · exact validateSession_congr (getElem?_afterEvents_filter rfl es) t

/-- Two sessions, the first of which is left alone for too long. -/
def twoSessions : List SessionEvent :=
  [⟨0, .create (lit "a")⟩, ⟨10, .create (lit "b")⟩, ⟨3600, .validate (lit "b")⟩,
    ⟨3601, .validate (lit "a")⟩, ⟨7000, .validate (lit "b")⟩]

/-- The other one is open. -/
theorem validateSession_twoSessions :
    SessionOpen (lit "b") twoSessions 10600 ∧
      (validateSession (afterEvents ∅ twoSessions) (lit "a") 3700).1 = false := by
  have hdistinct : (createdTokens twoSessions).Nodup := by decide
  have hopen : (validateSession (afterEvents ∅ twoSessions) (lit "b") 10600).1 = true := by
    decide +kernel
  have hlate : (validateSession (afterEvents ∅ (twoSessions.take 3)) (lit "a") 3601).1 = false := by
    decide +kernel
  constructor
  · exact (validateSession_run hdistinct (lit "b") 10600).1.mp hopen
  · exact (validateSession_run hdistinct (lit "a") 3700).2.1 (twoSessions.take 3)
      ⟨3601, .validate (lit "a")⟩ [⟨7000, .validate (lit "b")⟩] rfl (by decide)
      (.inr ⟨rfl, hlate⟩)

end Kitty.Web
