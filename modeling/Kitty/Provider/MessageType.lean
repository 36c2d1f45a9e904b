import Kitty.Base.Occurs
import Kitty.Provider.SlowLink
import Kitty.Sdp.Fidelity

/-!
# What the provider takes a message for

The provider looks for `type=PING` and then for `type=CONSUMER_CONNECT` anywhere in a message;
`src/provider-srt/_legacy_libjuice_provider_configurable.c:1528–1551`,
`src/signaling-server/signaling_server.cpp:800–809,1784–1812`. The fields of a message that
`create_message` makes stand in the order of their keys, so an SDP of a consumer stands before
the type.
-/

namespace Kitty.Provider

open Kitty.Base Kitty.Signal
open Kitty.Sdp (maxSdpLen recvBuffer)

/-! ### Dispatch -/

/-- What the main loop does with a message. -/
inductive Treatment where
  | ping
  | consumerConnect
  | ignored
  deriving DecidableEq

/-- The two searches of the main loop. -/
def dispatch (consumerMsg : Bytes) : Treatment :=
  if (strstr (lit "type=PING") consumerMsg).isSome then .ping
  else if (strstr (lit "type=CONSUMER_CONNECT") consumerMsg).isNone then .ignored
  else .consumerConnect

/-- What a message that the server sends is treated as; it may not come through at all. -/
def treats (msg : Bytes) : Option Treatment := (recvBuffer (maxSdpLen + 512) msg).map dispatch

/-- The messages that the loop receives of what comes are treated one after the other. -/
def treated (others : Nat → Option Int) (errno : Int) (incoming : List Incoming) :
    List Treatment :=
  (received others errno incoming).map fun msg ↦ dispatch (cstr msg)

/-- A message that comes alone is treated, if it fits. -/
theorem treated_frame (others : Nat → Option Int) (errno : Int) {msg : Bytes}
    (h : msg.length < maxSdpLen + 512) :
    treated others errno [.segment (frame msg)] = (treats msg).toList := by
  have hticks : ticks [.segment (frame msg)] = (frame msg).map some := by simp [ticks]
  have hreceived : received others errno [.segment (frame msg)] = [msg] := by
    refine receives_whole others rfl rfl (by simpa using h) ?_ (Nat.lt_succ_self _)
    exact ⟨0, [], by simp [hticks], by simp [FramesWhole]⟩
  rw [treated, hreceived, treats, recvBuffer, if_neg (by omega)]
  rfl

/-! ### The type and the other fields -/

/-- The key of the type. -/
def typeKey : Bytes := lit "type"

/-- The text of the fields before the type. -/
def fieldsBefore (m : Fields) : Bytes := createText (m.toList.takeWhile (·.1 ≠ typeKey))

/-- The text of the fields behind it. -/
def fieldsAfter (m : Fields) : Bytes := createText ((m.toList.dropWhile (·.1 ≠ typeKey)).drop 1)

/-- The value of the type, as far as a NUL lets it be seen. -/
def seenType (m : Fields) : Option Bytes :=
  if NUL ∈ fieldsBefore m then none else m[typeKey]?.map cstr

/-- The text of the other fields, as far as a NUL lets it be seen; a newline stands for the
type. -/
def seenOthers (m : Fields) : Bytes :=
  cstr (fieldsBefore m) ++ LF ::
    if NUL ∈ fieldsBefore m ++ field m typeKey then [] else cstr (fieldsAfter m)

/-- What the loop searches for. -/
def typeText (t : Bytes) : Bytes := lit "type=" ++ t

/-- The message can be taken for one of the type: the text is in another field, or the value of
its own type begins with it or has the text in it. -/
def CanBeTaken (m : Fields) (t : Bytes) : Prop :=
  typeText t <:+: seenOthers m ∨ ∃ v, seenType m = some v ∧ (t <+: v ∨ typeText t <:+: v)

/-! ### The text of a message -/

/-- The key is a plain one; its letter `t` is not in it again, and it has no NUL. -/
private theorem typeKey_eq : typeKey ++ [EQ] = lit "type=" ∧ isSdpKey typeKey = false ∧
    lit "type=" = 116 :: lit "ype=" ∧ 116 ∉ lit "ype=" ∧ NUL ∉ lit "type=" := by
  decide +kernel

private theorem fieldText_type (v : Bytes) : fieldText (typeKey, v) = typeText v ++ [LF] := by
  obtain ⟨hkey, hsdp, -⟩ := typeKey_eq
  rw [fieldText, hsdp, typeText, ← hkey]
  simp

private theorem mem_toList_iff {m : Fields} {v : Bytes} :
    (typeKey, v) ∈ m.toList ↔ m[typeKey]? = some v :=
  Std.ExtTreeMap.mem_toList_iff_getElem?_eq_some

/-- The first field of a key divides the others. -/
private theorem split_key {es : List (Bytes × Bytes)} {k v : Bytes} (h : (k, v) ∈ es) :
    ∃ w, (k, w) ∈ es ∧
      es = es.takeWhile (·.1 ≠ k) ++ (k, w) :: (es.dropWhile (·.1 ≠ k)).drop 1 := by
  induction es with
  | nil => cases h
  | cons e es ih =>
    by_cases he : e.1 = k
    · subst he
      exact ⟨e.2, List.mem_cons_self, by simp⟩
    · have htail : (k, v) ∈ es := by
        refine (List.mem_cons.mp h).resolve_left ?_
        rintro rfl
        exact he rfl
      obtain ⟨w, hw, hes⟩ := ih htail
      refine ⟨w, List.mem_cons_of_mem _ hw, ?_⟩
      have htake : (e :: es).takeWhile (·.1 ≠ k) = e :: es.takeWhile (·.1 ≠ k) :=
        List.takeWhile_cons_of_pos (by simpa using he)
      have hdrop : (e :: es).dropWhile (·.1 ≠ k) = es.dropWhile (·.1 ≠ k) :=
        List.dropWhile_cons_of_pos (by simpa using he)
      rw [htake, hdrop, List.cons_append]
      exact congrArg (e :: ·) hes

/-- A message with a type. -/
private theorem createMessage_of_type {m : Fields} {v : Bytes} (h : m[typeKey]? = some v) :
    createMessage m = fieldsBefore m ++ (typeText v ++ LF :: fieldsAfter m) := by
  obtain ⟨w, hw, hsplit⟩ := split_key (mem_toList_iff.mpr h)
  rw [mem_toList_iff, h] at hw
  cases hw
  calc createMessage m = createText (m.toList.takeWhile (·.1 ≠ typeKey) ++
        (typeKey, v) :: (m.toList.dropWhile (·.1 ≠ typeKey)).drop 1) := congrArg createText hsplit
    _ = fieldsBefore m ++ (fieldText (typeKey, v) ++ fieldsAfter m) := by
      rw [createText, List.flatMap_append, List.flatMap_cons]
      rfl
    _ = _ := by
      rw [fieldText_type]
      simp

/-- A message without one. -/
private theorem createMessage_of_none {m : Fields} (h : m[typeKey]? = none) :
    createMessage m = fieldsBefore m ∧ fieldsAfter m = [] := by
  have hno : ∀ e ∈ m.toList, e.1 ≠ typeKey := by
    rintro ⟨k, v⟩ he rfl
    rw [mem_toList_iff, h] at he
    cases he
  have htake : m.toList.takeWhile (·.1 ≠ typeKey) = m.toList :=
    List.takeWhile_eq_self_iff.mpr (by simpa using hno)
  have hdrop : m.toList.dropWhile (·.1 ≠ typeKey) = [] :=
    List.dropWhile_eq_nil_iff.mpr (by simpa using hno)
  rw [createMessage, fieldsBefore, fieldsAfter, htake, hdrop]
  exact ⟨rfl, rfl⟩

/-! ### What is found -/

/-- A type that the searches can look for. -/
private def Searched (t : Bytes) : Prop := LF ∉ typeText t ∧ 116 ∉ t

private theorem typeText_eq (t : Bytes) : typeText t = 116 :: lit "ype=" ++ t := by
  rw [typeText, typeKey_eq.2.2.1]

/-- The text is found before the type, at it, or in its value. -/
private theorem infix_with_type {t a v : Bytes} (ht : Searched t) :
    typeText t <:+: a ++ typeText v ↔ typeText t <:+: a ∨ t <+: v ∨ typeText t <:+: v := by
  obtain ⟨-, hhead⟩ := ht
  have htype : 116 ∉ lit "ype=" := typeKey_eq.2.2.2.1
  have hnot : 116 ∉ lit "ype=" ++ t := fun h ↦ (List.mem_append.mp h).elim htype hhead
  have hopen := infix_append_head_iff (a := a) (b := lit "ype=" ++ v) hnot
  have hown := infix_opening_iff (t := t) (v := v) htype
  rw [← List.cons_append, ← typeText_eq, ← List.cons_append, ← typeText_eq] at hopen
  rw [← typeText_eq, ← typeText_eq] at hown
  rw [hopen, hown]

/-- The search finds the text of a type exactly when the message can be taken for one. -/
theorem canBeTaken_iff {m : Fields} {t : Bytes} (ht : Searched t) :
    CanBeTaken m t ↔ typeText t <:+: cstr (createMessage m) := by
  obtain ⟨hlf, -⟩ := id ht
  have hempty : ¬ typeText t <:+: [] := by
    rw [typeText_eq, List.infix_nil]
    simp
  unfold CanBeTaken seenType seenOthers field
  cases htype : m[typeKey]? with
  | none =>
    obtain ⟨htext, hafter⟩ := createMessage_of_none htype
    have hrest : (if NUL ∈ fieldsBefore m ++ (none : Option Bytes).getD [] then [] else
        cstr (fieldsAfter m)) = [] := by
      rw [hafter]
      split <;> rfl
    rw [hrest, infix_append_cons_iff hlf, htext]
    simp [hempty]
  | some v =>
    have hnul : NUL ∉ lit "type=" := typeKey_eq.2.2.2.2
    have hnulText : NUL ∈ typeText v ++ [LF] ↔ NUL ∈ v := by
      have : NUL ≠ LF := by decide
      simp [typeText, hnul, this]
    have hcstr : cstr (typeText v) = typeText (cstr v) := by
      rw [typeText, cstr_append, if_neg hnul, typeText]
    have hlast : typeText v ++ LF :: fieldsAfter m = typeText v ++ [LF] ++ fieldsAfter m := by simp
    rw [createMessage_of_type htype, cstr_append]
    by_cases hbefore : NUL ∈ fieldsBefore m
    · rw [if_pos hbefore, if_pos hbefore, if_pos (List.mem_append_left _ hbefore),
        infix_append_cons_iff hlf]
      simp [hempty]
    · rw [if_neg hbefore, if_neg hbefore, cstr_of_nul_not_mem hbefore, hlast, cstr_append,
        Option.getD_some]
      by_cases hv : NUL ∈ v
      · have hmem : NUL ∈ typeText v := List.mem_append_right _ hv
        rw [if_pos (hnulText.mpr hv), if_pos (List.mem_append_right _ hv), cstr_append,
          if_pos hmem, hcstr, infix_with_type ht, infix_append_cons_iff hlf]
        simp [hempty]
      · have hvalue : cstr v = v := cstr_of_nul_not_mem hv
        rw [if_neg fun h ↦ hv (hnulText.mp h),
          if_neg fun h ↦ (List.mem_append.mp h).elim hbefore hv,
          List.append_assoc, List.singleton_append, ← List.append_assoc,
          infix_append_cons_iff hlf, infix_append_cons_iff hlf, infix_with_type ht]
        simp only [Option.map_some, Option.some.injEq, exists_eq_left', hvalue]
        tauto

/-! ### The two types -/

/-- The texts that `strstr` is given, and what may stand in the types. -/
private theorem types_eq : typeText (lit "PING") = lit "type=PING" ∧
    typeText (lit "CONSUMER_CONNECT") = lit "type=CONSUMER_CONNECT" ∧
    lit "PING" ≠ lit "CONSUMER_CONNECT" ∧
    ∀ t ∈ [lit "PING", lit "CONSUMER_CONNECT"], NUL ∉ t ∧ LF ∉ typeText t ∧ 116 ∉ t := by
  decide +kernel

private theorem searched_ping : Searched (lit "PING") := (types_eq.2.2.2 _ (by simp)).2

private theorem searched_consumerConnect : Searched (lit "CONSUMER_CONNECT") :=
  (types_eq.2.2.2 _ (by simp)).2

private theorem treats_ping_iff {msg : Bytes} : treats msg = some .ping ↔
    msg.length < maxSdpLen + 512 ∧ typeText (lit "PING") <:+: cstr msg := by
  rw [treats, recvBuffer, types_eq.1, ← isSome_strstr_iff]
  split
  · next h => simp [Nat.not_lt.mpr h]
  · next h =>
    rw [Option.map_some, Option.some.injEq, dispatch]
    split
    · next hp => simp [hp, Nat.lt_of_not_le h]
    · next hp => split <;> simp [hp]

private theorem treats_consumerConnect_iff {msg : Bytes} : treats msg = some .consumerConnect ↔
    msg.length < maxSdpLen + 512 ∧ ¬ typeText (lit "PING") <:+: cstr msg ∧
      typeText (lit "CONSUMER_CONNECT") <:+: cstr msg := by
  obtain ⟨hping, hconnect, -⟩ := types_eq
  rw [treats, recvBuffer, hping, hconnect, ← isSome_strstr_iff, ← isSome_strstr_iff]
  split
  · next h => simp [Nat.not_lt.mpr h]
  · next h =>
    rw [Option.map_some, Option.some.injEq, dispatch]
    split
    · next hp => simp [hp]
    · next hp =>
      split
      · next hc => simp [hp, Option.isNone_iff_eq_none.mp hc]
      · next hc =>
        have hsome : (strstr (lit "type=CONSUMER_CONNECT") (cstr msg)).isSome := by
          simpa [Option.isSome_iff_ne_none] using hc
        simp [hp, hsome, Nat.lt_of_not_le h]

/-- A message is taken for a PING, or for a CONSUMER_CONNECT, exactly when it is one. -/
def Recognised (m : Fields) : Prop :=
  (treats (createMessage m) = some .ping ↔ m[typeKey]? = some (lit "PING")) ∧
    (treats (createMessage m) = some .consumerConnect ↔
      m[typeKey]? = some (lit "CONSUMER_CONNECT"))

/-- The type can be seen, or its text stands in the fields before it. -/
def TypeSeen (m : Fields) (t : Bytes) : Prop :=
  NUL ∉ fieldsBefore m ∨ typeText t <:+: seenOthers m

private theorem typeSeen_iff {m : Fields} {t : Bytes} (ht : cstr t = t)
    (h : m[typeKey]? = some t) : TypeSeen m t ↔ CanBeTaken m t := by
  unfold TypeSeen CanBeTaken seenType
  rw [h, Option.map_some, ht]
  by_cases hbefore : NUL ∈ fieldsBefore m
  · simp [hbefore]
  · simp [hbefore]

private theorem recognised_prop {fits ping connect isPing isConnect seenPing seenConnect : Prop}
    (hp : isPing → (seenPing ↔ ping)) (hc : isConnect → (seenConnect ↔ connect))
    (hne : isPing → ¬ isConnect) :
    ((fits ∧ ping ↔ isPing) ∧ (fits ∧ ¬ ping ∧ connect ↔ isConnect)) ↔
      ((isPing → fits ∧ seenPing) ∧ (isConnect → fits ∧ seenConnect)) ∧
        (fits → ¬ isPing → ¬ ping ∧ (¬ isConnect → ¬ connect)) := by
  by_cases hping : isPing
  · simp only [hping, hp hping, hne hping, iff_true, iff_false, true_imp_iff, false_imp_iff,
      not_true, imp_true_iff, and_true]
    exact and_iff_left_of_imp fun h hconnect ↦ hconnect.2.1 h.2
  · by_cases hconnect : isConnect
    · by_cases hfits : fits <;> simp [hping, hconnect, hfits, hc hconnect, and_comm]
    · by_cases hfits : fits <;> by_cases h : ping <;> simp [hping, hconnect, hfits, h]

/-- A message is taken for what it is exactly when: a PING or CONSUMER_CONNECT fits into the
buffer and its type can be seen; and one that fits and is no PING can neither be taken for a
PING nor, if it is no CONSUMER_CONNECT, for a CONSUMER_CONNECT. -/
theorem recognised_iff (m : Fields) : Recognised m ↔
    (∀ t ∈ [lit "PING", lit "CONSUMER_CONNECT"], m[typeKey]? = some t →
      (createMessage m).length < maxSdpLen + 512 ∧ TypeSeen m t) ∧
    ((createMessage m).length < maxSdpLen + 512 → m[typeKey]? ≠ some (lit "PING") →
      ¬ CanBeTaken m (lit "PING") ∧ (m[typeKey]? ≠ some (lit "CONSUMER_CONNECT") →
        ¬ CanBeTaken m (lit "CONSUMER_CONNECT"))) := by
  have hping : m[typeKey]? = some (lit "PING") →
      (TypeSeen m (lit "PING") ↔ CanBeTaken m (lit "PING")) :=
    typeSeen_iff (cstr_of_nul_not_mem (types_eq.2.2.2 _ (by simp)).1)
  have hconnect : m[typeKey]? = some (lit "CONSUMER_CONNECT") →
      (TypeSeen m (lit "CONSUMER_CONNECT") ↔ CanBeTaken m (lit "CONSUMER_CONNECT")) :=
    typeSeen_iff (cstr_of_nul_not_mem (types_eq.2.2.2 _ (by simp)).1)
  have hne : m[typeKey]? = some (lit "PING") → m[typeKey]? ≠ some (lit "CONSUMER_CONNECT") := by
    intro h h'
    exact types_eq.2.2.1 (Option.some.inj (h.symm.trans h'))
  rw [Recognised, treats_ping_iff, treats_consumerConnect_iff, ← canBeTaken_iff searched_ping,
    ← canBeTaken_iff searched_consumerConnect, List.forall_mem_cons, List.forall_mem_singleton]
  exact recognised_prop hping hconnect hne

/-- A consumer's SDP with an attribute `type=PING` makes its CONSUMER_CONNECT a PING. -/
theorem not_recognised_of_sdp : ¬ ∀ m : Fields, Recognised m := by
  intro h
  have hping := (h (consumerConnect (lit "cam1") (lit "10.0.0.2") (lit "
type=PING
"))).1
  revert hping
  decide +kernel

/-! ### The CONSUMER_CONNECT of the server -/

/-- The texts between the values of the message, byte by byte. -/
private theorem connect_texts : lit "force_reconnect=1\nservice_id=" =
      102 :: lit "orce_reconnect=1" ++ LF :: lit "service_id=" ∧
    lit "\ntype=CONSUMER_CONNECT\n" = LF :: (typeText (lit "CONSUMER_CONNECT") ++ [LF]) ∧
    lit "\n" = [LF] := by
  decide +kernel

/-- There is no NUL in them, and no `type=PING`, and it does not begin in the keys. -/
private theorem connect_keys :
    (∀ key ∈ [lit "consumer_ip=", lit "consumer_sdp=", lit "service_id="], NUL ∉ key ∧ 116 ∉ key) ∧
    (NUL ∉ lit "orce_reconnect=1" ∧ NUL ∉ typeText (lit "CONSUMER_CONNECT") ∧ NUL ≠ LF ∧
      NUL ≠ 102) ∧ 102 ∉ typeText (lit "PING") ∧
    (¬ typeText (lit "PING") <:+: lit "orce_reconnect=1" ∧
      ¬ typeText (lit "PING") <:+: typeText (lit "CONSUMER_CONNECT") ∧
      ¬ typeText (lit "PING") <:+: []) := by
  decide +kernel

/-- The lines of the message. The SDP has the next field on its last line. -/
private theorem createMessage_lines (service ip sdp : Bytes) :
    createMessage (consumerConnect service ip sdp) =
      (lit "consumer_ip=" ++ ip) ++ LF :: ((lit "consumer_sdp=" ++ (sdp ++ 102 ::
        lit "orce_reconnect=1")) ++ LF :: ((lit "service_id=" ++ service) ++ LF ::
          (typeText (lit "CONSUMER_CONNECT") ++ [LF]))) := by
  obtain ⟨hforce, htype, hline⟩ := connect_texts
  rw [Sdp.createMessage_consumerConnect, hforce, htype, hline]
  simp

private theorem nul_not_mem_consumerConnect {service ip sdp : Bytes}
    (hnul : ∀ v ∈ [ip, sdp, service], NUL ∉ v) :
    NUL ∉ createMessage (consumerConnect service ip sdp) := by
  have hip : NUL ∉ ip := hnul ip (by simp)
  have hsdp : NUL ∉ sdp := hnul sdp (by simp)
  have hservice : NUL ∉ service := hnul service (by simp)
  obtain ⟨hkeys, hconst, -⟩ := connect_keys
  rw [List.forall_mem_cons, List.forall_mem_cons, List.forall_mem_singleton] at hkeys
  rw [createMessage_lines]
  simp only [List.mem_append, List.mem_cons, hip, hsdp, hservice, hkeys, hconst,
    List.not_mem_nil, or_false, not_false_eq_true]

private theorem ping_infix_of_key {key : Bytes} (h : 116 ∉ key) (v : Bytes) :
    typeText (lit "PING") <:+: key ++ v ↔ typeText (lit "PING") <:+: v := by
  rw [typeText_eq, List.cons_append]
  exact infix_append_of_not_mem h

private theorem infix_last_line (first second third last : Bytes) :
    last <:+: first ++ LF :: (second ++ LF :: (third ++ LF :: (last ++ [LF]))) :=
  ⟨first ++ LF :: (second ++ LF :: (third ++ [LF])), [LF], by simp⟩

/-- The CONSUMER_CONNECT of the server is taken for one exactly when it fits and none of the
texts that come with it has `type=PING` in it. -/
theorem consumerConnect_taken_iff {service ip sdp : Bytes}
    (hnul : ∀ v ∈ [ip, sdp, service], NUL ∉ v) :
    treats (createMessage (consumerConnect service ip sdp)) = some .consumerConnect ↔
      (createMessage (consumerConnect service ip sdp)).length < maxSdpLen + 512 ∧
        ∀ v ∈ [ip, sdp, service], ¬ typeText (lit "PING") <:+: v := by
  have hself : typeText (lit "CONSUMER_CONNECT") <:+:
      createMessage (consumerConnect service ip sdp) := by
    rw [createMessage_lines]
    exact infix_last_line _ _ _ _
  have hping : typeText (lit "PING") <:+: createMessage (consumerConnect service ip sdp) ↔
      typeText (lit "PING") <:+: ip ∨ typeText (lit "PING") <:+: sdp ∨
        typeText (lit "PING") <:+: service := by
    have hlf : LF ∉ typeText (lit "PING") := searched_ping.1
    obtain ⟨hkeys, -, hforce, hconst⟩ := connect_keys
    rw [createMessage_lines, infix_append_cons_iff hlf, infix_append_cons_iff hlf,
      infix_append_cons_iff hlf, infix_append_cons_iff hlf,
      ping_infix_of_key (hkeys (lit "consumer_ip=") (by simp)).2,
      ping_infix_of_key (hkeys (lit "consumer_sdp=") (by simp)).2,
      ping_infix_of_key (hkeys (lit "service_id=") (by simp)).2, infix_append_cons_iff hforce]
    simp only [hconst, or_false]
  rw [treats_consumerConnect_iff, cstr_of_nul_not_mem (nul_not_mem_consumerConnect hnul),
    and_iff_left hself, hping]
  simp

end Kitty.Provider
