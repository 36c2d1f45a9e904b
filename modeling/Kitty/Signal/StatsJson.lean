import Kitty.Base.JsonLiterals
import Kitty.Signal.Outage

/-!
# The statistics of the signaling server

`generate_json_stats` prints a JSON document for the dashboard with a member for the server, its
resources and its counters, and the list of the registered services, those of the SRT cameras behind
the others; `src/signaling-server/signaling_server.cpp:811–964`. The strings of the registries are
printed between quotes as they are.
-/

namespace Kitty.Signal

open Kitty.Base
open Kitty.Base.Json (Shown line listing block memberBlock)

/-- `ResourceMetrics`, as far as it is printed. A `double` is the number of hundredths that it is
printed with. -/
structure ResourceMetrics where
  cpuUsage : Nat
  memoryUsageKb : Nat
  networkRxBytes : Nat
  networkTxBytes : Nat
  networkRxRate : Nat
  networkTxRate : Nat

/-- What is printed beside the registries, with the two readings of the clock. -/
structure StatsPage where
  signalingPort : Int
  httpPort : Int
  serverStartTime : Int
  uptimeNow : Int
  now : Int
  resourceMetrics : ResourceMetrics

/-- The copies of the registries. The SRT registry has a lock of its own and is copied later. -/
structure StatsSnapshot where
  providers : Std.ExtTreeMap Bytes ProviderInfo
  serverStats : Stats
  srtProviders : Std.ExtTreeMap Bytes SrtProviderInfo

/-! ### Numbers -/

/-- A `double` with `std::fixed` and `std::setprecision(2)`. -/
def fixedText (hundredths : Nat) : Bytes :=
  decimal (hundredths / 100) ++
    [46, UInt8.ofNat (48 + hundredths / 10 % 10), UInt8.ofNat (48 + hundredths % 10)]

/-- A `bool`. -/
def boolText (b : Bool) : Bytes := if b then lit "true" else lit "false"

/-- `get_uptime`. -/
def getUptime (serverStartTime now : Int) : Bytes :=
  let uptimeSeconds := now - serverStartTime
  let hours := uptimeSeconds.tdiv 3600
  let minutes := (uptimeSeconds.tmod 3600).tdiv 60
  let seconds := uptimeSeconds.tmod 60
  stdToString hours ++ lit "h " ++ stdToString minutes ++ lit "m " ++ stdToString seconds ++ lit "s"

section Page

-- the quotient of two numbers as a `double`, in the hundredths that it is printed with
variable (quotient : Nat → Nat → Nat)

/-- The units of `format_bytes`. -/
def byteUnits : List Bytes := [lit "B", lit "KB", lit "MB", lit "GB", lit "TB"]

/-- How often the loop of `format_bytes` divides by 1024. -/
def unitIndex (bytes : Nat) : Nat :=
  ((List.range 4).takeWhile fun k ↦ 1024 ^ (k + 1) ≤ bytes).length

/-- `format_bytes`. -/
def formatBytes (bytes : Nat) : Bytes :=
  fixedText (quotient bytes (1024 ^ unitIndex bytes)) ++ lit " " ++
    byteUnits.getD (unitIndex bytes) []

/-! ### The members -/

/-- The members of `server`. -/
def serverFields (cfg : Config) (page : StatsPage) : List (Bytes × Shown) :=
  [(lit "uptime", .text (getUptime page.serverStartTime page.uptimeNow)),
    (lit "signaling_port", .bare (stdToString page.signalingPort)),
    (lit "http_port", .bare (stdToString page.httpPort)),
    (lit "turn_configured", .bare (boolText (cfg.turnServerHost ≠ []))),
    (lit "protocol_note", .text (lit "STUN (RFC 5389) Binding Request/Response for NAT traversal; TURN (RFC 5766) extends STUN to relay traffic"))]

/-- The members of `resources`. -/
def resourceFields (metrics : ResourceMetrics) : List (Bytes × Shown) :=
  [(lit "cpu_usage", .bare (fixedText metrics.cpuUsage)),
    (lit "memory_usage_mb", .bare (fixedText (quotient metrics.memoryUsageKb 1024))),
    (lit "network_rx_bytes", .bare (stdToString metrics.networkRxBytes)),
    (lit "network_tx_bytes", .bare (stdToString metrics.networkTxBytes)),
    (lit "network_rx_rate", .bare (stdToString metrics.networkRxRate)),
    (lit "network_tx_rate", .bare (stdToString metrics.networkTxRate)),
    (lit "network_rx_formatted", .text (formatBytes quotient metrics.networkRxBytes)),
    (lit "network_tx_formatted", .text (formatBytes quotient metrics.networkTxBytes)),
    (lit "network_rx_rate_formatted",
      .text (formatBytes quotient metrics.networkRxRate ++ lit "/s")),
    (lit "network_tx_rate_formatted",
      .text (formatBytes quotient metrics.networkTxRate ++ lit "/s"))]

/-- The members of `stats`. -/
def statsFields (snap : StatsSnapshot) : List (Bytes × Shown) :=
  [(lit "active_providers", .bare (stdToString (snap.providers.size + snap.srtProviders.size))),
    (lit "active_libjuice_providers", .bare (stdToString snap.providers.size)),
    (lit "active_srt_providers", .bare (stdToString snap.srtProviders.size)),
    (lit "total_providers", .bare (stdToString snap.serverStats.totalProviders)),
    (lit "total_consumers", .bare (stdToString snap.serverStats.totalConsumers)),
    (lit "total_connections", .bare (stdToString snap.serverStats.totalConnections))]

/-- `uptime_percentage`. -/
def uptimePercentage (info : ProviderInfo) (now : Int) : Nat :=
  let timeSinceFirstSeen := now - info.firstSeen
  if 0 < timeSinceFirstSeen then
    quotient (info.totalUptime now * 100) timeSinceFirstSeen.toNat
  else 0

/-- The members of the entry of a provider. -/
def providerFields (now : Int) (service : Bytes) (info : ProviderInfo) : List (Bytes × Shown) :=
  [(lit "service_id", .text service),
    (lit "peer_id", .text info.peerId),
    (lit "ip", .text info.ip),
    (lit "p2p_port", .bare (stdToString info.p2pPort)),
    (lit "connected_duration", .bare (stdToString (now - info.connectedAt))),
    (lit "messages_sent", .bare (stdToString info.messagesSent)),
    (lit "messages_received", .bare (stdToString info.messagesReceived)),
    (lit "bytes_sent", .bare (stdToString info.bytesSent)),
    (lit "bytes_received", .bare (stdToString info.bytesReceived)),
    (lit "bytes_sent_formatted", .text (formatBytes quotient info.bytesSent)),
    (lit "bytes_received_formatted", .text (formatBytes quotient info.bytesReceived)),
    (lit "consumer_ip", .text info.consumerIp),
    (lit "has_consumer", .bare (boolText info.hasConsumer)),
    (lit "total_downtime", .bare (stdToString info.totalDowntime)),
    (lit "disconnect_count", .bare (stdToString info.disconnectCount)),
    (lit "uptime_percentage", .bare (fixedText (uptimePercentage quotient info now))),
    (lit "consumer_port", .bare (stdToString info.consumerPort)),
    (lit "protocol", .text info.serviceProtocol),
    (lit "codec", .text (if info.serviceCodec = [] then lit "h264" else info.serviceCodec)),
    (lit "transport", .text (lit "libjuice"))]

/-- The members of the entry of an SRT camera. -/
def srtProviderFields (now : Int) (service : Bytes) (sp : SrtProviderInfo) :
    List (Bytes × Shown) :=
  [(lit "service_id", .text service),
    (lit "peer_id", .text (lit "srt")),
    (lit "ip", .text sp.srflxIp),
    (lit "p2p_port", .bare (stdToString sp.srflxPort)),
    (lit "connected_duration", .bare (stdToString (now - sp.connectedAt))),
    (lit "messages_sent", .bare (lit "0")),
    (lit "messages_received", .bare (lit "0")),
    (lit "bytes_sent", .bare (lit "0")),
    (lit "bytes_received", .bare (lit "0")),
    (lit "bytes_sent_formatted", .text (lit "P2P-direct")),
    (lit "bytes_received_formatted", .text (lit "P2P-direct")),
    (lit "consumer_ip", .text sp.consumerIp),
    (lit "has_consumer", .bare (boolText sp.hasConsumer)),
    (lit "total_downtime", .bare (lit "0")),
    (lit "disconnect_count", .bare (lit "0")),
    (lit "uptime_percentage", .bare (lit "100")),
    (lit "consumer_port", .bare (lit "0")),
    (lit "protocol", .text (lit "srt-rendezvous")),
    (lit "codec", .text (lit "opaque")),
    (lit "transport", .text (lit "srt"))]

/-- The entries of the list, those of the SRT cameras last. -/
def statsEntries (now : Int) (snap : StatsSnapshot) : List (List (Bytes × Shown)) :=
  (snap.providers.toList.map fun e ↦ providerFields quotient now e.1 e.2) ++
    snap.srtProviders.toList.map fun e ↦ srtProviderFields now e.1 e.2

/-! ### The document -/

/-- An object in the document: its members are on lines with so many blanks. -/
def statsBlock (blanks : Nat) (fields : List (Bytes × Shown)) : Bytes :=
  memberBlock (List.replicate blanks 32) (List.replicate (blanks - 2) 32) fields

/-- `generate_json_stats`. -/
def generateJsonStats (cfg : Config) (page : StatsPage) (snap : StatsSnapshot) : Bytes :=
  block []
    [line (lit "  ") (lit "server") (statsBlock 4 (serverFields cfg page)),
      line (lit "  ") (lit "resources")
        (statsBlock 4 (resourceFields quotient page.resourceMetrics)),
      line (lit "  ") (lit "stats") (statsBlock 4 (statsFields snap)),
      line (lit "  ") (lit "providers") (listing (lit "  ")
        ((statsEntries quotient page.now snap).map fun fields ↦
          lit "    " ++ statsBlock 6 fields))] ++ lit "\n"

end Page

/-! ### What the numbers look like -/

/-- Bytes below 128 that need no escape. -/
def Tame (text : Bytes) : Prop := (∀ b ∈ text, b ≤ 0x7F) ∧ Json.Plain text

instance (text : Bytes) : Decidable (Tame text) :=
  have : Decidable (∀ b ∈ text, b ≤ 0x7F) := List.decidableBAll _ text
  inferInstanceAs (Decidable (_ ∧ _))

theorem Tame.append {a b : Bytes} (ha : Tame a) (hb : Tame b) : Tame (a ++ b) := by
  constructor
  · intro c hc
    rcases List.mem_append.mp hc with hc | hc
    · exact ha.1 c hc
    · exact hb.1 c hc
  · intro c hc
    rcases List.mem_append.mp hc with hc | hc
    · exact ha.2 c hc
    · exact hb.2 c hc

private theorem tame_of_digits {text : Bytes} (h : ∀ b ∈ text, isDigit b = true) : Tame text := by
  have hdigit : ∀ b, isDigit b = true → b ≤ 0x7F ∧ 0x20 ≤ b ∧ b ≠ Json.QUOTE ∧ b ≠ Json.BACKSLASH :=
    fun b hb ↦ by
      have hrange : 48 ≤ b.toNat ∧ b.toNat ≤ 57 := by
        simpa [isDigit, UInt8.le_iff_toNat_le] using hb
      refine ⟨?_, ?_, ?_, ?_⟩
      · rw [UInt8.le_iff_toNat_le]
        exact Nat.le_trans hrange.2 (by decide)
      · rw [UInt8.le_iff_toNat_le]
        exact Nat.le_trans (by decide) hrange.1
      · rintro rfl
        exact absurd hb (by decide)
      · rintro rfl
        exact absurd hb (by decide)
  exact ⟨fun b hb ↦ (hdigit b (h b hb)).1, fun b hb ↦ (hdigit b (h b hb)).2⟩

theorem tame_decimal (n : Nat) : Tame (decimal n) :=
  tame_of_digits fun _ ↦ isDigit_of_mem_decimal

theorem tame_stdToString (v : Int) : Tame (stdToString v) := by
  unfold stdToString
  split
  · exact @Tame.append [45] _ (by decide) (tame_decimal _)
  · exact tame_decimal _

private theorem isDigit_ofNat {n : Nat} (h : n < 10) : isDigit (UInt8.ofNat (48 + n)) = true := by
  have hall : ∀ n ∈ List.range 10, isDigit (UInt8.ofNat (48 + n)) = true := by decide
  exact hall n (List.mem_range.mpr h)

private theorem fixedDigits (hundredths : Nat) :
    ∀ b ∈ [UInt8.ofNat (48 + hundredths / 10 % 10), UInt8.ofNat (48 + hundredths % 10)],
      isDigit b = true := by
  intro b hb
  rcases List.mem_cons.mp hb with rfl | hb
  · exact isDigit_ofNat (Nat.mod_lt _ (by decide))
  · rw [List.mem_singleton.mp hb]
    exact isDigit_ofNat (Nat.mod_lt _ (by decide))

theorem tame_fixedText (hundredths : Nat) : Tame (fixedText hundredths) :=
  (tame_decimal _).append
    (@Tame.append [46] _ (by decide) (tame_of_digits (fixedDigits hundredths)))

theorem tame_boolText (b : Bool) : Tame (boolText b) := by
  cases b <;> decide

theorem tame_getUptime (serverStartTime now : Int) : Tame (getUptime serverStartTime now) :=
  ((((((tame_stdToString _).append (by decide)).append (tame_stdToString _)).append
    (by decide)).append (tame_stdToString _)).append (by decide))

theorem tame_formatBytes (quotient : Nat → Nat → Nat) (bytes : Nat) :
    Tame (formatBytes quotient bytes) := by
  have hunits : ∀ unit ∈ byteUnits, Tame unit := by decide
  refine ((tame_fixedText _).append (by decide)).append ?_
  rw [List.getD_eq_getElem?_getD]
  cases hunit : byteUnits[unitIndex bytes]? with
  | none => decide
  | some unit => exact hunits unit (List.mem_of_getElem? hunit)

/-- The decimal text of a positive number does not begin with a zero. -/
private theorem head_decimal {n : Nat} (h : n ≠ 0) : (decimal n).head? ≠ some 48 := by
  induction n using Nat.strongRecOn with
  | ind n ih =>
    rcases Nat.lt_or_ge n 10 with hlt | hge
    · have hall : ∀ n ∈ List.range 10, n ≠ 0 → (decimal n).head? ≠ some 48 := by decide
      exact hall n (List.mem_range.mpr hlt) h
    · have hdecimal : decimal n = decimal (n / 10) ++ decimal (n % 10) := by
        rw [decimal, Nat.toDigits_of_base_le (by decide) hge, List.map_append, decimal, decimal,
          Nat.toDigits_of_lt_base (Nat.mod_lt n (by decide : 0 < 10))]
      have hdiv := ih (n / 10) (by omega) (by omega)
      rw [hdecimal, List.head?_append]
      cases hhead : (decimal (n / 10)).head? with
      | none => exact absurd (List.head?_eq_none_iff.mp hhead) (decimal_ne_nil _)
      | some b =>
        rw [hhead] at hdiv
        exact hdiv

private theorem digits_decimal {n : Nat} : ∀ b ∈ decimal n, Json.isDigit b = true :=
  fun _ ↦ isDigit_of_mem_decimal

private theorem intPart_decimal (n : Nat) {rest : Bytes}
    (hrest : ∀ b ∈ rest.head?, Json.isDigit b = false) :
    Json.intPart (decimal n ++ rest) = some rest := by
  by_cases hn : n = 0
  · rw [hn, show decimal 0 = [48] by decide, List.singleton_append, Json.intPart, if_pos rfl]
  · exact Json.intPart_append (decimal_ne_nil n) digits_decimal (head_decimal hn) hrest

/-- An integer is printed as a number. -/
theorem isNumber_stdToString (v : Int) : Json.IsNumber (stdToString v) := by
  have hdecimal := @intPart_decimal v.natAbs [] fun _ h ↦ nomatch h
  rw [List.append_nil] at hdecimal
  unfold Json.IsNumber stdToString
  split
  · rw [Json.dropSign_minus, hdecimal]
    rfl
  · have hsign := Json.dropSign_digits (decimal_ne_nil v.natAbs) digits_decimal []
    rw [List.append_nil] at hsign
    rw [hsign, hdecimal]
    rfl

/-- So is a `double`. -/
theorem isNumber_fixedText (hundredths : Nat) : Json.IsNumber (fixedText hundredths) := by
  have hdigits := fixedDigits hundredths
  have hfraction := @Json.someDigits_append _ [] (List.cons_ne_nil _ _) hdigits fun _ h ↦ nomatch h
  rw [List.append_nil] at hfraction
  unfold Json.IsNumber fixedText
  rw [Json.dropSign_digits (decimal_ne_nil _) digits_decimal, intPart_decimal _ fun b hb ↦ by
    cases hb
    decide, Option.bind_some, Json.fraction_point, hfraction]
  rfl

end Kitty.Signal
