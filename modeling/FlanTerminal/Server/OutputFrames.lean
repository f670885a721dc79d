import FlanTerminal.Server.TerminalBridgeSafety

/-!
# Output frames as the client reads them

The bridge bounds what is pending on the socket by its own limit; the client
bounds every single frame by `MAX_WS_PAYLOAD_BYTES`.  This module reads the
frames of the bridge with the client's parser and finds which of them pass.
-/

namespace FlanTerminal
namespace Server
namespace TerminalBridge

open Foundation
open Shared

/-!
## The text of an output frame
-/

def frameHead : JsString :=
  js "\x7b\"v\":1,\"type\":\"output\",\"sessionId\":\""

def frameMiddle : JsString :=
  js "\",\"data\":\""

theorem version_text :
    JsNumber.text (JsNumber.finite PROTOCOL_VERSION) = js "1" := by
  decide +kernel

theorem frame_output (id data : JsString) :
    (ServerMessage.output id data).frame =
      frameHead ++ (Json.escape id ++ (frameMiddle ++
        (Json.escape data ++ [34, 125]))) := by
  have hversion : Json.stringify (Json.num (JsNumber.finite PROTOCOL_VERSION)) =
      js "1" := by
    simpa only [Json.stringify] using version_text
  simp only [ServerMessage.frame, ServerMessage.members, Json.stringify,
    Json.stringifyMembers]
  simp only [Json.stringify] at hversion
  rw [hversion]
  simp only [Json.quote, List.append_assoc, List.cons_append, List.nil_append]
  rfl

def Plain (u : UInt16) : Prop :=
  Json.unitCost u = 1 ∧ isHighSurrogate u = false

theorem plain_of_idUnit {u : UInt16} (h : IsIdUnit u) : Plain u := by
  rcases h with h | h | h
  · rw [h]
    exact ⟨by decide, by decide⟩
  · have hall : forall m : Fin 58, 48 ≤ m.val ->
        Json.unitCost (UInt16.ofNat m.val) = 1 := by decide
    have hcost := hall ⟨u.toNat, Nat.lt_succ_of_le h.2⟩ h.1
    rw [UInt16.ofNat_toNat] at hcost
    exact ⟨hcost, not_isHighSurrogate_of_lt (by omega)⟩
  · have hall : forall m : Fin 103, 97 ≤ m.val ->
        Json.unitCost (UInt16.ofNat m.val) = 1 := by decide
    have hcost := hall ⟨u.toNat, Nat.lt_succ_of_le h.2⟩ h.1
    rw [UInt16.ofNat_toNat] at hcost
    exact ⟨hcost, not_isHighSurrogate_of_lt (by omega)⟩

theorem escapedBytes_plain {s : JsString} (hs : forall u, u ∈ s -> Plain u) :
    Json.escapedBytes s = s.length := by
  induction s using Json.escapedBytes.induct with
  | case1 => rfl
  | case2 u => exact (hs u List.mem_cons_self).1
  | case3 u v rest hpair ih =>
      rw [(hs u List.mem_cons_self).2] at hpair
      cases hpair
  | case4 u v rest hpair ih =>
      rw [Json.escapedBytes, if_neg hpair,
        ih (fun w hw => hs w (List.mem_cons_of_mem u hw)),
        (hs u List.mem_cons_self).1]
      exact Nat.add_comm 1 _

theorem frame_output_bytes {id : JsString} (hid : isSessionId id = true)
    (data : JsString) :
    utf8ByteLength (ServerMessage.output id data).frame =
      84 + Json.escapedBytes data := by
  have hhead : forall u, u ∈ frameHead -> u.toNat < 0x80 := ascii_of_all rfl
  have hmiddle : forall u, u ∈ frameMiddle -> u.toNat < 0x80 :=
    ascii_of_all rfl
  have hplain : forall u, u ∈ id -> Plain u := by
    intro u hu
    exact plain_of_idUnit (isSessionId_units hid u hu)
  rw [frame_output, utf8ByteLength_ascii_append hhead,
    Json.utf8ByteLength_escape, utf8ByteLength_ascii_append hmiddle,
    Json.utf8ByteLength_escape, escapedBytes_plain hplain,
    isSessionId_length hid]
  have hheadLength : frameHead.length = 36 := by decide
  have hmiddleLength : frameMiddle.length = 10 := by decide
  have hend : utf8ByteLength [34, 125] = 2 := by decide
  rw [hheadLength, hmiddleLength, hend]
  omega

/-!
## Reading it back
-/

def outputMembers (id data : JsString) : List (JsString × Json) :=
  [(js "v", Json.num (JsNumber.finite 1)),
    (js "type", Json.str (js "output")), (js "sessionId", Json.str id),
    (js "data", Json.str data)]

theorem one_toNumber :
    Json.NumAcc.toNumber ⟨false, 1, 0, false, 0⟩ = JsNumber.finite 1 := by
  decide +kernel

theorem run_frameHead :
    Json.run ⟨Json.Mode.value, [], none⟩ frameHead =
      some ⟨Json.Mode.str false [],
        [Json.Open.obj [(js "v", Json.num (JsNumber.finite 1)),
          (js "type", Json.str (js "output"))] (js "sessionId")], none⟩ := by
  rw [← one_toNumber]
  rfl

theorem run_frameMiddle (id : JsString) :
    Json.run (Json.deliver (Json.str id)
        [Json.Open.obj [(js "v", Json.num (JsNumber.finite 1)),
          (js "type", Json.str (js "output"))] (js "sessionId")])
      (frameMiddle.drop 1) =
      some ⟨Json.Mode.str false [],
        [Json.Open.obj [(js "v", Json.num (JsNumber.finite 1)),
          (js "type", Json.str (js "output")),
          (js "sessionId", Json.str id)] (js "data")], none⟩ := by
  rfl

theorem parse_frame_output (id data : JsString) :
    Json.parse (ServerMessage.output id data).frame =
      some (Json.obj (outputMembers id data)) := by
  have htext : (ServerMessage.output id data).frame =
      frameHead ++ ((Json.escape id ++ [34]) ++ (frameMiddle.drop 1 ++
        ((Json.escape data ++ [34]) ++ [125]))) := by
    rw [frame_output]
    simp only [List.append_assoc]
    rfl
  unfold Json.parse
  rw [htext, Json.run_append, run_frameHead, Option.bind_some,
    Json.run_append, Json.run_quote]
  simp only [Json.endString, Option.bind_some]
  rw [Json.run_append, run_frameMiddle, Option.bind_some, Json.run_append,
    Json.run_quote]
  rfl

theorem schema_outputMembers {id : JsString} (hid : isSessionId id = true)
    (data : JsString) :
    serverMessageSchema (Json.obj (outputMembers id data)) =
      some (ServerMessage.output id data) := by
  have hversion : versionOk (outputMembers id data) = true := by
    show decide ((1 : ℚ) = PROTOCOL_VERSION) = true
    exact decide_eq_true rfl
  have hsession : sessionIdMember (outputMembers id data) = some id := by
    show (if isSessionId id then some id else none) = some id
    rw [if_pos hid]
  have hdata : stringMember (outputMembers id data) (js "data") =
      some data := rfl
  have htype : stringMember (outputMembers id data) (js "type") =
      some (js "output") := rfl
  have hstrict : strict [js "v", js "type", js "sessionId", js "data"]
      (outputMembers id data) = true := rfl
  have hready : js "output" ≠ js "ready" := by decide
  unfold serverMessageSchema
  simp only [htype, hready, hstrict, hversion, hsession, hdata, if_false,
    if_true, Bool.and_self]

theorem parseServerMessage_frame {id : JsString}
    (hid : isSessionId id = true) (data : JsString) :
    parseServerMessage (RawData.text (ServerMessage.output id data).frame) =
      if Json.escapedBytes data ≤ 65452 then
        Except.ok (ServerMessage.output id data)
      else Except.error ProtocolParseErrorCode.payload_too_large := by
  have hbytes := frame_output_bytes hid data
  unfold parseServerMessage parseMessage
  simp only [parse_frame_output, schema_outputMembers hid]
  rw [hbytes]
  by_cases hfits : Json.escapedBytes data ≤ 65452
  · rw [if_pos hfits, if_neg (by simp only [MAX_WS_PAYLOAD_BYTES]; omega)]
  · rw [if_neg hfits, if_pos (by simp only [MAX_WS_PAYLOAD_BYTES]; omega)]

/-!
## The frames a bridge sends
-/

theorem sent_frame {o : Options} {cfg : Config State ports Thrown Unit Event}
    (hrun : Run o cfg) {before after : List Entry} {n : Nat}
    {data frame : JsString}
    (hlog : cfg.shared.log = before ++
      Entry.called n (PortCall.effect (Effect.send frame)) :: after)
    (hdata : Entry.received n (Event.data data) ∈ before) :
    frame = (ServerMessage.output o.sessionId data).frame := by
  have hgood := hrun.inv.good
  have hsafe := underAuthority hgood
  rcases List.append_of_mem hdata with ⟨a, b, hab⟩
  have hfirst : cfg.shared.log = a ++ Entry.received n (Event.data data) ::
      (b ++ Entry.called n (PortCall.effect (Effect.send frame)) ::
        after) := by
    rw [hlog, hab]
    simp
  rcases hsafe.sent before n frame after hlog with
    ⟨data', a', b', amount, hbefore, hframe, _⟩ |
    ⟨exitCode, signal, a', b', hbefore, _⟩
  · have hsecond : cfg.shared.log = a' ++
        Entry.received n (Event.data data') :: (b' ++
          [Entry.returned n PortCall.bufferedAmount (Except.ok amount)] ++
          Entry.called n (PortCall.effect (Effect.send frame)) :: after) := by
      rw [hlog, hbefore]
      simp
    have hsame := (hsafe.received _ _ _ _ _ _ _ hfirst hsecond).2.1
    cases hsame
    exact hframe
  · have hsecond : cfg.shared.log = a' ++
        Entry.received n (Event.exit exitCode signal) :: (b' ++
          Entry.called n (PortCall.effect (Effect.send frame)) :: after) := by
      rw [hlog, hbefore]
      simp
    cases (hsafe.received _ _ _ _ _ _ _ hfirst hsecond).2.1

/-- An output frame a bridge sends is accepted by the client, as this output,
exactly when the escaped data has at most 65452 bytes. -/
theorem sent_output_accepted_iff {o : Options}
    (hid : isSessionId o.sessionId = true)
    {cfg : Config State ports Thrown Unit Event} (hrun : Run o cfg)
    {before after : List Entry} {n : Nat} {data frame : JsString}
    (hlog : cfg.shared.log = before ++
      Entry.called n (PortCall.effect (Effect.send frame)) :: after)
    (hdata : Entry.received n (Event.data data) ∈ before) :
    parseServerMessage (RawData.text frame) =
        Except.ok (ServerMessage.output o.sessionId data) <->
      Json.escapedBytes data ≤ 65452 := by
  rw [sent_frame hrun hlog hdata, parseServerMessage_frame hid]
  by_cases hfits : Json.escapedBytes data ≤ 65452
  · simp [hfits]
  · simp [hfits]

theorem sends {o : Options} {k n amount : Nat} {log : List Entry}
    {data : JsString} (hrun : Run o ⟨⟨true, false, k, log⟩, [], [], n⟩)
    (hroom : ((amount + utf8ByteLength
      (ServerMessage.output o.sessionId data).frame : Nat) : ℚ) < o.limit) :
    exists cfg before after, Run o cfg ∧
      cfg.shared.log = before ++ Entry.called n (PortCall.effect
        (Effect.send (ServerMessage.output o.sessionId data).frame)) ::
        after ∧
      Entry.received n (Event.data data) ∈ before := by
  have hnot : ¬ o.limit ≤ ((amount + utf8ByteLength
      (ServerMessage.output o.sessionId data).frame : Nat) : ℚ) :=
    not_le.mpr hroom
  have h1 : Run o _ := hrun.tail
    (Step.enter (Event.data data) (by simp [bridge])
      (Seg.act (Seg.sync (Except.ok ()) rfl trivial
        (Seg.sync (Except.ok true) rfl trivial
          (Seg.sync (Except.ok amount) rfl trivial
            (Seg.of_eq (if_neg hnot) (Seg.stop nofun)))))))
  refine ⟨_, _, [], h1, rfl, ?_⟩
  simp [bridge, State.record]

theorem escapedBytes_replicate (n : Nat) :
    Json.escapedBytes (List.replicate n 97) = n := by
  rw [escapedBytes_plain, List.length_replicate]
  intro u hu
  rw [(List.mem_replicate.mp hu).2]
  exact ⟨by decide, by decide⟩

def sampleOptions : Options :=
  ⟨sampleSession, 1048576⟩

theorem sampleSession_valid : isSessionId sampleSession = true := by
  rfl

theorem sends_sample {data : JsString}
    (hdata : Json.escapedBytes data < 1048492) :
    exists cfg before after, Run sampleOptions cfg ∧
      cfg.shared.log = before ++ Entry.called 1 (PortCall.effect
        (Effect.send (ServerMessage.output sampleSession data).frame)) ::
        after ∧
      Entry.received 1 (Event.data data) ∈ before := by
  have hlimit : sampleOptions.limit = ((1048576 : Nat) : ℚ) := by
    decide +kernel
  have hroom : ((0 + utf8ByteLength (ServerMessage.output
      sampleOptions.sessionId data).frame : Nat) : ℚ) <
      sampleOptions.limit := by
    rw [hlimit]
    show ((0 + utf8ByteLength (ServerMessage.output sampleSession
      data).frame : Nat) : ℚ) < _
    rw [frame_output_bytes sampleSession_valid, Nat.cast_lt]
    omega
  rcases opens (o := sampleOptions) sampleSession_valid (by decide +kernel)
    (by decide +kernel) with ⟨log, hopen⟩
  exact sends hopen hroom

theorem sent_output_accepted_iff_largest :
    exists cfg before after frame, Run sampleOptions cfg ∧
      cfg.shared.log = before ++
        Entry.called 1 (PortCall.effect (Effect.send frame)) :: after ∧
      parseServerMessage (RawData.text frame) =
        Except.ok (ServerMessage.output sampleSession
          (List.replicate 65452 97)) := by
  have hbytes := escapedBytes_replicate 65452
  generalize List.replicate 65452 (97 : UInt16) = data at hbytes
  rcases sends_sample (by omega : Json.escapedBytes data < 1048492) with
    ⟨cfg, before, after, hrun, hlog, hdata⟩
  refine ⟨cfg, before, after, _, hrun, hlog, ?_⟩
  exact (sent_output_accepted_iff sampleSession_valid hrun hlog hdata).mpr
    (by omega)

/-- One byte more: the bridge sends a frame that the client refuses. -/
theorem sent_output_refused :
    exists cfg before after frame, Run sampleOptions cfg ∧
      isSessionId sampleSession = true ∧
      cfg.shared.log = before ++
        Entry.called 1 (PortCall.effect (Effect.send frame)) :: after ∧
      Entry.received 1 (Event.data (List.replicate 65453 97)) ∈ before ∧
      parseServerMessage (RawData.text frame) =
        Except.error ProtocolParseErrorCode.payload_too_large := by
  have hbytes := escapedBytes_replicate 65453
  generalize List.replicate 65453 (97 : UInt16) = data at hbytes
  rcases sends_sample (by omega : Json.escapedBytes data < 1048492) with
    ⟨cfg, before, after, hrun, hlog, hdata⟩
  refine ⟨cfg, before, after, _, hrun, sampleSession_valid, hlog, hdata, ?_⟩
  rw [parseServerMessage_frame sampleSession_valid, if_neg (by omega)]

end TerminalBridge
end Server
end FlanTerminal
