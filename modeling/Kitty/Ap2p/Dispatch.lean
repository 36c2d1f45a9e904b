import Kitty.Ap2p.Config
import Kitty.Base.Topic

/-!
# Case numbers of MQTT messages

A message comes under a topic that ends in the number of its case. The MQTT thread builds the
prefix of its own topics when it starts, the legacy handlers build theirs at every connection, in
a smaller buffer, and both subscriptions share one callback;
`src/ap2p/mqtt_thread.c:75–168, 267–276` and `src/ap2p/legacy_cases.c:62, 750–774, 2614–2630`.
-/

namespace Kitty.Ap2p

open Kitty.Base

/-- `node_id`, which is not empty when the MQTT thread starts. -/
structure NodeId where
  text : Bytes
  nonempty : text ≠ []
  length_le : text.length ≤ 63
  nul : NUL ∉ text

/-- The receive topic `mqtt_thread_main` builds. -/
def gTopicRecv (nodeId : NodeId) : Bytes := snprintf 80 [lit "torque/rx/", nodeId.text, lit "/"]

/-- The receive topic `ap2p_legacy_init` builds. -/
def mqttTopicReceive (nodeId : NodeId) : Bytes :=
  snprintf 50 [lit "torque/rx/", nodeId.text, lit "/"]

/-- The topic filters of `subscribe_topics`. -/
def subscribeTopics (topicRecv : Bytes) : List Bytes :=
  [snprintf 96 [topicRecv, lit "#"], lit "torque/rx/all/#"]

/-- What becomes of a message: it is taken for a configuration, or goes to the legacy handlers,
which look for the number of their case from a byte of the topic on. -/
inductive Dispatched where
  | config
  | legacy (caseValue : Nat)
  deriving DecidableEq

/-- Where `legacy_message_arrived` looks for the number. -/
def legacyMessageArrived (topicReceive : Bytes) : Nat := topicReceive.length

/-- `message_arrived`. -/
def messageArrived (topicRecv topicReceive topicName : Bytes) : Dispatched :=
  let caseNum :=
    if topicRecv.isPrefixOf topicName then atoi (topicName.drop topicRecv.length) else -1
  if caseNum = 90 then .config else .legacy (legacyMessageArrived topicReceive)

/-- Legacy handlers look for the number of their case in the topic, and find the one that is
written after the matched prefix when one is. -/
def ReadsCase (topicRecv topicReceive topicName : Bytes) (written : Option Bytes) : Prop :=
  ∀ caseValue, messageArrived topicRecv topicReceive topicName = .legacy caseValue →
    caseValue ≤ topicName.length ∧
      ∀ text ∈ written, atoi (topicName.drop caseValue) = atoi text

/-- The legacy prefix is as long as what the filter matched, or what stands after as many bytes
reads as the same number. -/
def Aligned (length : Nat) (head : Bytes) : Option Bytes → Prop
  | none => length ≤ head.length
  | some text =>
    length = head.length + 1 ∨
      length ≤ head.length ∧ atoi (head.drop length) = atoi text ∨
      head.length + 1 < length ∧ length - (head.length + 1) ≤ text.length ∧
        atoi (text.drop (length - (head.length + 1))) = atoi text

/-- A slash ends a number. -/
theorem atoi_append_slash (text rest : Bytes) : atoi (text ++ SLASH :: rest) = atoi text :=
  atoi_append_cons (by decide) text rest

private theorem lit_topics : lit "torque/rx/" = lit "torque" ++ SLASH :: lit "rx/" ∧
    lit "torque/rx/all/#" = lit "torque" ++ SLASH :: lit "rx/all/#" ∧
    (lit "torque/rx/").length = 10 ∧ NUL ∉ lit "torque/rx/" ∧ SLASH ∉ lit "torque" := by decide

/-- The prefix of the own topics fits its buffer. -/
theorem gTopicRecv_eq (nodeId : NodeId) :
    gTopicRecv nodeId = lit "torque/rx/" ++ nodeId.text ++ lit "/" := by
  have hlen := nodeId.length_le
  have hbegins := lit_topics.2.2.1
  rw [gTopicRecv, snprintf_eq]
  · simp
  · intro part hpart
    simp only [List.mem_cons, List.not_mem_nil, or_false] at hpart
    obtain rfl | rfl | rfl := hpart
    · exact lit_topics.2.2.2.1
    · exact nodeId.nul
    · decide
  · have hslash : (lit "/").length = 1 := by decide
    simp only [List.flatten_cons, List.flatten_nil, List.length_append, List.length_nil]
    omega

/-- The other one may be cut off. -/
theorem length_mqttTopicReceive (nodeId : NodeId) :
    (mqttTopicReceive nodeId).length = min 49 (nodeId.text.length + 11) := by
  have hbegins := lit_topics.2.2.1
  have hslash : cstr (lit "/") = lit "/" ∧ (lit "/").length = 1 := by decide
  simp only [mqttTopicReceive, snprintf, List.flatMap_cons, List.flatMap_nil, List.append_nil,
    cstr_of_nul_not_mem lit_topics.2.2.2.1, cstr_of_nul_not_mem nodeId.nul, hslash.1,
    List.length_take, List.length_append, hslash.2, hbegins]
  omega

/-- Both filters name `torque` first. -/
theorem levels_filter (nodeId : NodeId) {filter : Bytes}
    (h : filter ∈ subscribeTopics (gTopicRecv nodeId)) :
    ∃ fs, levels filter = lit "torque" :: fs := by
  obtain ⟨hown, hall, hlen, hnul, hslash⟩ := lit_topics
  have hnode := nodeId.length_le
  have hwild : snprintf 96 [gTopicRecv nodeId, lit "#"] = gTopicRecv nodeId ++ lit "#" := by
    have hhash : NUL ∉ lit "#" ∧ (lit "#").length = 1 ∧ (lit "/").length = 1 := by decide
    rw [snprintf_eq]
    · simp
    · intro part hpart
      simp only [List.mem_cons, List.not_mem_nil, or_false] at hpart
      obtain rfl | rfl := hpart
      · exact nul_not_mem_snprintf _ _
      · exact hhash.1
    · simp only [List.flatten_cons, List.flatten_nil, List.length_append, List.length_nil,
        gTopicRecv_eq, hlen, hhash.2]
      omega
  have hlevels : ∀ rest, levels (lit "torque" ++ SLASH :: rest) = lit "torque" :: levels rest :=
    fun rest ↦ List.splitOn_append_cons_self_of_not_mem hslash rest
  simp only [subscribeTopics, hwild, List.mem_cons, List.not_mem_nil, or_false] at h
  obtain rfl | rfl := h
  · rw [gTopicRecv_eq, hown]
    simp only [List.append_assoc, List.cons_append, hlevels]
    exact ⟨_, rfl⟩
  · rw [hall, hlevels]
    exact ⟨_, rfl⟩

/-- A message is taken for a configuration when its topic is an own one with the number 90. -/
theorem messageArrived_eq (topicRecv topicReceive topicName : Bytes) :
    (messageArrived topicRecv topicReceive topicName = .config ∧
      ∃ text, topicName = topicRecv ++ text ∧ atoi text = 90) ∨
    (messageArrived topicRecv topicReceive topicName = .legacy topicReceive.length ∧
      ¬ ∃ text, topicName = topicRecv ++ text ∧ atoi text = 90) := by
  by_cases hbegins : topicRecv <+: topicName
  · obtain ⟨text, rfl⟩ := hbegins
    have hiff : (∃ text', topicRecv ++ text = topicRecv ++ text' ∧ atoi text' = 90) ↔
        atoi text = 90 := by simp
    simp only [messageArrived, legacyMessageArrived, List.isPrefixOf_iff_prefix,
      List.prefix_append, if_true, List.drop_left, hiff]
    split
    · next h => exact .inl ⟨rfl, h⟩
    · next h => exact .inr ⟨rfl, h⟩
  · refine .inr ⟨?_, fun ⟨text, htext, _⟩ ↦ hbegins ⟨text, htext.symm⟩⟩
    rw [← List.isPrefixOf_iff_prefix] at hbegins
    simp [messageArrived, legacyMessageArrived, hbegins]

/-- A prefix is aligned when as many bytes on, the number reads as the one that was written. -/
theorem aligned_iff (length : Nat) (head : Bytes) (written : Option Bytes) :
    Aligned length head written ↔
      length ≤ (head ++ written.elim [] (SLASH :: ·)).length ∧
        ∀ text ∈ written,
          atoi ((head ++ written.elim [] (SLASH :: ·)).drop length) = atoi text := by
  cases written with
  | none => simp [Aligned]
  | some text =>
    simp only [Aligned, Option.elim_some, List.length_append, List.length_cons,
      Option.mem_def, Option.some.injEq, forall_eq']
    obtain hlt | heq | hgt := Nat.lt_trichotomy length (head.length + 1)
    · have hdrop : (head ++ SLASH :: text).drop length = head.drop length ++ SLASH :: text :=
        List.drop_append_of_le_length (by omega)
      rw [hdrop, atoi_append_slash]
      constructor
      · rintro (h | ⟨-, h⟩ | ⟨h, -⟩)
        · omega
        · exact ⟨by omega, h⟩
        · omega
      · exact fun ⟨_, h⟩ ↦ .inr (.inl ⟨by omega, h⟩)
    · have hdrop : (head ++ SLASH :: text).drop length = text := by
        rw [heq, List.drop_append]
        simp
      exact iff_of_true (.inl heq) ⟨by omega, by rw [hdrop]⟩
    · have hdrop : (head ++ SLASH :: text).drop length =
          text.drop (length - (head.length + 1)) := by
        rw [List.drop_append, List.drop_eq_nil_of_le (by omega), List.nil_append,
          show length - head.length = length - (head.length + 1) + 1 by omega, List.drop_succ_cons]
      rw [hdrop]
      constructor
      · rintro (h | ⟨h, -⟩ | ⟨-, hlen, h⟩)
        · omega
        · omega
        · exact ⟨by omega, h⟩
      · exact fun ⟨hlen, h⟩ ↦ .inr (.inr ⟨hgt, by omega, h⟩)

/-- The thread was started under one node id and the connection made under another, or the same
one. A message that one of the filters matches is taken for a configuration, or its case is read
as it was published, exactly when the legacy prefix is aligned with the matched one: its length is
that of `torque/rx/<node_id>/`, but at most 49. -/
theorem readsCase_iff (started connected : NodeId) {filter topicName head : Bytes}
    {written : Option Bytes} (hfilter : filter ∈ subscribeTopics (gTopicRecv started))
    (hmatch : matchTopic filter topicName = some (head, written)) :
    ReadsCase (gTopicRecv started) (mqttTopicReceive connected) topicName written ↔
      (∃ text, topicName = lit "torque/rx/" ++ started.text ++ lit "/" ++ text ∧
        atoi text = 90) ∨
        Aligned (min 49 (connected.text.length + 11)) head written := by
  obtain ⟨fs, hlevels⟩ := levels_filter started hfilter
  have htopic := topic_of_matchTopic hlevels (by decide) hmatch
  rw [aligned_iff, ← htopic, ← length_mqttTopicReceive, ← gTopicRecv_eq]
  obtain ⟨hconfig, htext⟩ | ⟨hlegacy, hnot⟩ :=
    messageArrived_eq (gTopicRecv started) (mqttTopicReceive connected) topicName
  · apply iff_of_true _ (.inl htext)
    intro caseValue h
    cases hconfig.symm.trans h
  · rw [or_iff_right hnot]
    constructor
    · exact fun h ↦ h _ hlegacy
    · intro h caseValue hcase
      cases hlegacy.symm.trans hcase
      exact h

/-- A node id of three characters makes the prefixes of both filters equally long. -/
theorem readsCase_iff_threeCharacters :
    ReadsCase (gTopicRecv ⟨lit "SN1", by decide, by decide, by decide⟩)
      (mqttTopicReceive ⟨lit "SN1", by decide, by decide, by decide⟩) (lit "torque/rx/all/2")
      (some (lit "2")) :=
  (readsCase_iff ⟨lit "SN1", by decide, by decide, by decide⟩
    ⟨lit "SN1", by decide, by decide, by decide⟩
    (by decide : lit "torque/rx/all/#" ∈ _)
    (by decide : matchTopic _ (lit "torque/rx/all/2") =
      some (lit "torque/rx/all", some (lit "2")))).mpr (.inr (.inl (by decide)))

/-- With a longer one, the number of a message to all is looked for after the end of its topic. -/
theorem broadcast_case_not_read :
    ¬ ∀ (nodeId : NodeId) (filter topicName head : Bytes) (written : Option Bytes),
      filter ∈ subscribeTopics (gTopicRecv nodeId) →
        matchTopic filter topicName = some (head, written) →
          ReadsCase (gTopicRecv nodeId) (mqttTopicReceive nodeId) topicName written := by
  intro h
  have hread := h ⟨lit "SN123", by decide, by decide, by decide⟩ (lit "torque/rx/all/#")
    (lit "torque/rx/all/2") (lit "torque/rx/all") (some (lit "2")) (by decide) (by decide)
  have hlegacy := hread 16 (by decide)
  exact absurd hlegacy.1 (by decide)

end Kitty.Ap2p
