import Kitty.Base.Trim
import Kitty.Srt.KeyValue

/-!
# The two copies of `kv_get`

The camera's (`src/ap2p/srt_thread.c:207–224`) and the phone's
(`src/consumer-srt-android/consumer_srt_p2p.c:113–129`), with what they return and what they
leave in the output array, on the messages the server's `create_message` makes.
-/

namespace Kitty.Srt

open Kitty.Base Kitty.Signal

/-! ### The programs -/

/-- `memcpy` to the start of an array. -/
def memcpy (dst src : Bytes) : Bytes := src ++ dst.drop src.length

/-- The loop of `kv_get`, from the start of a line: the value of the first line that is long
enough and starts with the key and an equals sign, from behind it to the end of the line. -/
def kvScan (key p : Bytes) : Option Bytes :=
  if p = [] then none
  else
    let line := p.takeWhile (· ≠ LF)
    if key.length + 1 < line.length ∧ p.take key.length = key ∧ p[key.length]? = some EQ then
      some (line.drop (key.length + 1))
    else
      match _h : p.dropWhile (· ≠ LF) with
      | [] => none
      | _ :: rest => kvScan key rest
  termination_by p.length
  decreasing_by
    have hle := (List.dropWhile_sublist (· ≠ LF) (l := p)).length_le
    simp only [_h, List.length_cons] at hle
    omega

/-- The length of the value that is copied. -/
def kvLength (value : Bytes) (cap : Nat) : Nat :=
  if cap ≤ value.length then cap - 1 else value.length

/-- The value is copied and ended. -/
def kvStore (value : Bytes) (cap : Nat) (out : Bytes) : Bytes :=
  (memcpy out (value.take (kvLength value cap))).set (kvLength value cap) NUL

/-- What `kv_get` returns, and its output array. -/
structure KvResult where
  ret : Int
  out : Bytes
  deriving DecidableEq

/-- The camera's `kv_get`. -/
def cameraKvGet (msg key : Bytes) (cap : Nat) (out : Bytes) : KvResult :=
  if cap = 0 then ⟨-1, out⟩
  else
    let out := out.set 0 NUL
    match kvScan (cstr key) (cstr msg) with
    | some value => ⟨0, kvStore value cap out⟩
    | none => ⟨-1, out⟩

/-- The phone's `kv_get`. -/
def phoneKvGet (msg key : Bytes) (cap : Nat) (out : Bytes) : KvResult :=
  match kvScan (cstr key) (cstr msg) with
  | some value => ⟨kvLength value cap, kvStore value cap out⟩
  | none => ⟨-1, out.set 0 NUL⟩

/-! ### The scan -/

/-- A line of the key is one that starts with the key and an equals sign. -/
theorem isLineOf_iff {key line tail : Bytes} :
    isLineOf key line = true ↔ key.length + 1 < line.length ∧
      (line ++ tail).take key.length = key ∧ (line ++ tail)[key.length]? = some EQ := by
  rw [isLineOf, Bool.and_eq_true, decide_eq_true_eq, List.isPrefixOf_iff_prefix]
  apply and_congr_right
  intro hlen
  constructor
  · rintro ⟨rest, rfl⟩
    simp
  · rintro ⟨htake, hget⟩
    have hshort : (key ++ [EQ]).length ≤ line.length := by
      rw [List.length_append, List.length_singleton]
      omega
    have hprefix : key ++ [EQ] <+: line ++ tail := by
      rw [List.prefix_iff_eq_take, List.length_append, List.length_singleton, List.take_add_one,
        htake, hget]
      rfl
    exact List.prefix_of_prefix_length_le hprefix (List.prefix_append line tail) hshort

/-- The lines from a pointer on: the one it is at the start of, and those behind its newline. -/
theorem getlines_cut {p : Bytes} (hp : p ≠ []) :
    getlines p = p.takeWhile (· ≠ LF) :: getlines (p.dropWhile (· ≠ LF)).tail := by
  by_cases hlf : LF ∈ p
  · obtain ⟨rest, hrest⟩ := exists_append_cons hlf
    have hline : LF ∉ p.takeWhile (· ≠ LF) := not_mem_takeWhile_ne LF p
    generalize p.takeWhile (· ≠ LF) = line at hrest hline ⊢
    rw [hrest, dropWhile_ne_append_cons hline, getlines_line _ _ hline, List.tail_cons]
  · have hall : ∀ b ∈ p, decide (b ≠ LF) = true := fun b hb ↦
      decide_eq_true fun heq : b = LF ↦ hlf (heq ▸ hb)
    have hlines := getlines_append p [] hlf hp
    rw [List.append_nil, getlines_nil] at hlines
    rw [List.takeWhile_eq_self_iff.mpr hall, List.dropWhile_eq_nil_iff.mpr hall, hlines]
    rfl

/-- The scan finds the first line of the key. -/
theorem kvScan_eq (key p : Bytes) :
    kvScan key p = ((getlines p).find? (isLineOf key)).map (·.drop (key.length + 1)) := by
  have hcut : ∀ {p : Bytes}, isLineOf key (p.takeWhile (· ≠ LF)) = true ↔
      key.length + 1 < (p.takeWhile (· ≠ LF)).length ∧ p.take key.length = key ∧
        p[key.length]? = some EQ := by
    intro p
    have hiff := @isLineOf_iff key (p.takeWhile (· ≠ LF)) (p.dropWhile (· ≠ LF))
    rwa [List.takeWhile_append_dropWhile] at hiff
  fun_induction kvScan key p with
  | case1 => rfl
  | case2 p hp line hmatch =>
    rw [getlines_cut hp, List.find?_cons_of_pos (hcut.mpr hmatch)]
    rfl
  | case3 p hp line hmatch hdrop =>
    rw [getlines_cut hp, List.find?_cons_of_neg (hmatch ∘ hcut.mp), hdrop]
    rfl
  | case4 p hp line hmatch b rest hdrop ih =>
    rw [getlines_cut hp, List.find?_cons_of_neg (hmatch ∘ hcut.mp), hdrop]
    exact ih

/-! ### The output array -/

/-- What an array holds behind a text that was written to its start and ended. -/
def ended (text before : Bytes) : Bytes := text ++ NUL :: before.drop (text.length + 1)

theorem length_ended {text before : Bytes} (h : text.length < before.length) :
    (ended text before).length = before.length := by
  rw [ended, List.length_append, List.length_cons, List.length_drop]
  omega

/-- Nothing is written behind the end of the text. -/
theorem drop_ended {text before : Bytes} {n : Nat} (h : text.length < n) :
    (ended text before).drop n = before.drop n := by
  obtain ⟨k, rfl⟩ : ∃ k, n = text.length + 1 + k := ⟨n - (text.length + 1), by omega⟩
  rw [ended, Nat.add_assoc, ← List.drop_drop, List.drop_left, Nat.add_comm 1 k,
    List.drop_succ_cons, List.drop_drop]
  congr 1
  omega

private theorem set_nul {text before : Bytes} (h : text.length < before.length) :
    (memcpy before text).set text.length NUL = ended text before := by
  rw [memcpy, ended, List.set_append_right _ _ (Nat.le_refl _), Nat.sub_self,
    List.drop_eq_getElem_cons h, List.set_cons_zero]

/-- An empty text is its end. -/
theorem set_zero_nul {before : Bytes} (h : 0 < before.length) :
    before.set 0 NUL = ended [] before :=
  @set_nul [] before h

/-- As much of the value is kept as leaves room for its end. -/
theorem kvStore_eq {value out : Bytes} {cap : Nat} (hcap : 1 ≤ cap) (hout : cap ≤ out.length) :
    kvStore value cap out = ended (value.take (cap - 1)) out := by
  have hlength : kvLength value cap = (value.take (cap - 1)).length := by
    rw [kvLength, List.length_take]
    split <;> omega
  have htake : value.take (kvLength value cap) = value.take (cap - 1) := by
    rw [hlength, List.length_take]
    exact List.take_eq_take_min.symm
  rw [kvStore, htake, hlength]
  apply set_nul
  rw [List.length_take]
  omega

/-- The text that was there before does not matter. -/
theorem ended_set_zero (text before : Bytes) : ended text
    (before.set 0 NUL) = ended text before := by
  cases before with
  | nil => rfl
  | cons b before => rfl

/-- Read as a string, the array is what the lookup found in the message. -/
theorem cstr_kvGet (msg : Bytes) {key : Bytes} (hkey : NUL ∉ key) {n : Nat} (hn : 1 ≤ n)
    {out : Bytes} (hout : n ≤ out.length) :
    cstr (cameraKvGet msg key n out).out = kvGet (cstr msg) key n ∧
      cstr (phoneKvGet msg key n out).out = kvGet (cstr msg) key n := by
  have hcstr : ∀ {text : Bytes} (before : Bytes), NUL ∉ text → cstr (ended text before) = text :=
    fun before h ↦ takeWhile_ne_append_cons h _
  have hclear : out.set 0 NUL = ended [] out := set_zero_nul (by omega)
  have hn0 : n ≠ 0 := by omega
  rw [cameraKvGet, if_neg hn0, phoneKvGet, kvScan_eq, cstr_of_nul_not_mem hkey, kvGet]
  cases hfind : (getlines (cstr msg)).find? (isLineOf key) with
  | none =>
    have hempty : cstr (out.set 0 NUL) = [] := by rw [hclear, hcstr out (by simp)]
    exact ⟨hempty, hempty⟩
  | some line =>
    have hvalue : NUL ∉ (line.drop (key.length + 1)).take (n - 1) := fun h ↦
      nul_not_mem_cstr msg (mem_of_mem_getlines (List.mem_of_find?_eq_some hfind)
        (List.mem_of_mem_drop (List.mem_of_mem_take h)))
    have hout' : n ≤ (out.set 0 NUL).length := by rwa [List.length_set]
    constructor
    · change cstr (kvStore _ n (out.set 0 NUL)) = _
      rw [kvStore_eq hn hout', hcstr _ hvalue]
    · change cstr (kvStore _ n out) = _
      rw [kvStore_eq hn hout, hcstr _ hvalue]

/-! ### On the messages of the server -/

/-- A key that may stand in a message. -/
structure MessageKey (key : Bytes) : Prop where
  ne : key ≠ []
  eq : EQ ∉ key
  lf : LF ∉ key
  nul : NUL ∉ key

instance (key : Bytes) : Decidable (MessageKey key) :=
  decidable_of_iff (key ≠ [] ∧ EQ ∉ key ∧ LF ∉ key ∧ NUL ∉ key)
    ⟨fun ⟨h1, h2, h3, h4⟩ ↦ ⟨h1, h2, h3, h4⟩, fun ⟨h1, h2, h3, h4⟩ ↦ ⟨h1, h2, h3, h4⟩⟩

/-- A field map without SDP whose values are parts of lines. -/
structure PlainMessage (m : Fields) : Prop where
  keys : ∀ key : Bytes, key ∈ m → MessageKey key
  sdp : ∀ key : Bytes, key ∈ m → isSdpKey key = false
  values : ∀ key value : Bytes, m[key]? = some value → LF ∉ value ∧ NUL ∉ value

/-- The fields of such a map, each on a line of its own. -/
theorem PlainMessage.field {m : Fields} (h : PlainMessage m) {e : Bytes × Bytes}
    (he : e ∈ m.toList) : PlainField e ∧ NUL ∉ e.1 ∧ NUL ∉ e.2 := by
  have hget := Std.ExtTreeMap.mem_toList_iff_getElem?_eq_some.mp he
  have hmem : e.1 ∈ m := Std.ExtTreeMap.mem_iff_isSome_getElem?.mpr (by rw [hget]; rfl)
  have hkey := h.keys _ hmem
  have hvalue := h.values _ _ hget
  exact ⟨⟨⟨hkey.ne, hkey.eq, hkey.lf, h.sdp _ hmem⟩, hvalue.1⟩, hkey.nul, hvalue.2⟩

/-- A map is such a map when each of its fields is. -/
theorem plainMessage_of_toList {m : Fields} (h : ∀ e ∈ m.toList, MessageKey e.1 ∧
    isSdpKey e.1 = false ∧ LF ∉ e.2 ∧ NUL ∉ e.2) : PlainMessage m := by
  have hget : ∀ key value : Bytes, m[key]? = some value → (key, value) ∈ m.toList :=
    fun _ _ ↦ Std.ExtTreeMap.mem_toList_iff_getElem?_eq_some.mpr
  have hmem : ∀ key : Bytes, key ∈ m → ∃ value, (key, value) ∈ m.toList := by
    intro key hkey
    obtain ⟨value, hvalue⟩ :=
      Option.isSome_iff_exists.mp (Std.ExtTreeMap.mem_iff_isSome_getElem?.mp hkey)
    exact ⟨value, hget key value hvalue⟩
  constructor
  · intro key hkey
    obtain ⟨value, he⟩ := hmem key hkey
    exact (h _ he).1
  · intro key hkey
    obtain ⟨value, he⟩ := hmem key hkey
    exact (h _ he).2.1
  · intro key value hvalue
    exact (h _ (hget key value hvalue)).2.2

/-- The scan of a message finds the value of the key in the map, when it is not empty. -/
theorem kvScan_createMessage {m : Fields} (hm : PlainMessage m) {key : Bytes}
    (hkey : MessageKey key) (stale : Bytes) :
    kvScan (cstr key) (cstr (createMessage m ++ NUL :: stale)) = m[key]?.filter (· ≠ []) := by
  have hplain : ∀ e ∈ m.toList, PlainField e := fun e he ↦ (hm.field he).1
  have hnul : NUL ∉ createMessage m := nul_not_mem_createText fun e he ↦ (hm.field he).2
  rw [cstr_of_nul_not_mem hkey.nul, cstr, takeWhile_ne_append_cons hnul, kvScan_eq, createMessage,
    find?_isLineOf hplain hkey.eq]
  cases hfind : m.toList.find? fun e ↦ decide (e.1 = key ∧ e.2 ≠ []) with
  | some e =>
    have hmatch := List.find?_some hfind
    rw [decide_eq_true_eq] at hmatch
    have hget := Std.ExtTreeMap.mem_toList_iff_getElem?_eq_some.mp (List.mem_of_find?_eq_some hfind)
    rw [← hmatch.1, hget, Option.filter_some_pos (by simpa using hmatch.2)]
    rfl
  | none =>
    cases hget : m[key]? with
    | none => rfl
    | some value =>
      have hnone := List.find?_eq_none.mp hfind _
        (Std.ExtTreeMap.mem_toList_iff_getElem?_eq_some.mpr hget)
      have hempty : value = [] := by simpa using hnone
      rw [hempty]
      rfl

/-- What a lookup leaves behind that was to find a value, which may be missing: it succeeds when
there is one with a byte in it; the array of the given size holds the value as far as it fits,
with a NUL behind it, and nothing behind the array is written. -/
structure LooksUp (value : Option Bytes) (size : Nat) (before : Bytes) (result : KvResult) :
    Prop where
  success : result.ret ≠ -1 ↔ ∃ v, value = some v ∧ v ≠ []
  text : result.out.take ((value.getD []).take (size - 1)).length = (value.getD []).take (size - 1)
  nul : result.out[((value.getD []).take (size - 1)).length]? = some NUL
  within : ((value.getD []).take (size - 1)).length < size
  length : result.out.length = before.length
  behind : result.out.drop size = before.drop size

private theorem looksUp_of_ended {value : Option Bytes} {size : Nat} {before : Bytes}
    {result : KvResult} (hsize : 1 ≤ size) (hbefore : size ≤ before.length)
    (hret : result.ret ≠ -1 ↔ ∃ v, value = some v ∧ v ≠ [])
    (hout : result.out = ended ((value.getD []).take (size - 1)) before) :
    LooksUp value size before result := by
  have hlen : ((value.getD []).take (size - 1)).length < size := by
    rw [List.length_take]
    omega
  constructor
  · exact hret
  · rw [hout, ended, List.take_left]
  · rw [hout, ended, List.getElem?_append_right (Nat.le_refl _), Nat.sub_self]
    rfl
  · exact hlen
  · rw [hout, length_ended (by omega)]
  · rw [hout, drop_ended hlen]

/-- On a message of the server, both copies of `kv_get` find what the map has under the key, as
far as it fits, and both leave the same array. -/
theorem kvGet_createMessage {m : Fields} (hm : PlainMessage m) {key : Bytes}
    (hkey : MessageKey key) (stale : Bytes) {n : Nat} (hn : 1 ≤ n) {out : Bytes}
    (hout : n ≤ out.length) :
    LooksUp m[key]? n out (cameraKvGet (createMessage m ++ NUL :: stale) key n out) ∧
      LooksUp m[key]? n out (phoneKvGet (createMessage m ++ NUL :: stale) key n out) ∧
      (cameraKvGet (createMessage m ++ NUL :: stale) key n out).out =
        (phoneKvGet (createMessage m ++ NUL :: stale) key n out).out := by
  have hn0 : n ≠ 0 := by omega
  have hclear : out.set 0 NUL = ended [] out := set_zero_nul (by omega)
  rw [cameraKvGet, if_neg hn0, phoneKvGet, kvScan_createMessage hm hkey]
  cases hget : m[key]?.filter (· ≠ []) with
  | some value =>
    obtain ⟨hvalue, hne⟩ := Option.filter_eq_some_iff.mp hget
    have hstore : kvStore value n out = ended (value.take (n - 1)) out := kvStore_eq hn hout
    have hstore' : kvStore value n (out.set 0 NUL) = kvStore value n out := by
      rw [hstore, kvStore_eq hn (by simpa using hout), ended_set_zero]
    have hfound : ∃ v, m[key]? = some v ∧ v ≠ [] := ⟨value, hvalue, by simpa using hne⟩
    refine ⟨?_, ?_, hstore'⟩
    · apply looksUp_of_ended hn hout
      · refine iff_of_true ?_ hfound
        change (0 : Int) ≠ -1
        omega
      · rw [hvalue]
        exact hstore'.trans hstore
    · apply looksUp_of_ended hn hout
      · refine iff_of_true ?_ hfound
        change (kvLength value n : Int) ≠ -1
        omega
      · rw [hvalue]
        exact hstore
  | none =>
    have hempty : m[key]?.getD [] = [] := by
      cases hvalue : m[key]? with
      | none => rfl
      | some value =>
        rw [hvalue, Option.filter_eq_none_iff] at hget
        simpa using hget value rfl
    have hmissing : ¬ ∃ v, m[key]? = some v ∧ v ≠ [] := by
      rintro ⟨v, hv, hne⟩
      rw [hv] at hempty
      exact hne hempty
    have hnone : LooksUp m[key]? n out ⟨-1, out.set 0 NUL⟩ := by
      apply looksUp_of_ended hn hout
      · exact iff_of_false (fun h ↦ h rfl) hmissing
      · rw [hempty, List.take_nil]
        exact hclear
    exact ⟨hnone, hnone, rfl⟩

/-- A message with a key that ends in another one, and a field without a value. -/
def suffixMessage : Fields :=
  assign ∅ [(lit "type", lit "SRT_PEER"), (lit "srflx_ip", lit "198.51.100.7"), (lit "lan_ip", [])]

/-- The end of a key is not found, and nothing is left of it. -/
theorem kvGet_suffixMessage :
    LooksUp none 8 (List.replicate 8 255)
        (cameraKvGet (createMessage suffixMessage ++ NUL :: []) (lit "ip") 8
          (List.replicate 8 255)) ∧
      LooksUp none 8 (List.replicate 8 255)
        (phoneKvGet (createMessage suffixMessage ++ NUL :: []) (lit "ip") 8
          (List.replicate 8 255)) ∧
      (cameraKvGet (createMessage suffixMessage ++ NUL :: []) (lit "ip") 8
          (List.replicate 8 255)).out =
        (phoneKvGet (createMessage suffixMessage ++ NUL :: []) (lit "ip") 8
          (List.replicate 8 255)).out := by
  have hplain : PlainMessage suffixMessage := plainMessage_of_toList (by decide +kernel)
  have hmissing : suffixMessage[lit "ip"]? = none := by decide +kernel
  rw [← hmissing]
  exact kvGet_createMessage hplain (by decide) [] (by decide) (by decide)

end Kitty.Srt
