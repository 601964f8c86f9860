/-
RdEngine/Vnc/Init.lean

The initialisation phase of the RFB client against the server of the document.

The client starts by reading ServerInit, and the server by reading ClientInit,
which the client never sends: both wait, for every server.  With the one byte
in front, the same client and the same servers understand each other
(`clientInit_agrees`), so nothing else is missing.
-/
import RdEngine.Vnc.Server

namespace RdEngine

open Dialogue Dialogue.Prog

namespace Vnc

open Words (be ofBe)

/-! ### ServerInit -/

theorem uint16_be (n : UInt16) : UInt16.ofNat (ofBe (be 2 n.toNat)) = n := by
  rw [Words.ofBe_be_of_lt n.toNat_lt, UInt16.ofNat_toNat]

namespace PixelFormat

theorem length_encode (format : PixelFormat) : format.encode.length = 16 := by
  simp [encode]

/-- A format is read as it was written. -/
theorem decode_encode (format : PixelFormat) :
    decode ⟨format.encode, format.length_encode⟩ = format := by
  obtain ⟨bits, depth, bigEndian, trueColour, redMax, greenMax, blueMax, rs, gs, bs⟩ := format
  simp only [decode, PixelFormat.mk.injEq]
  refine ⟨rfl, rfl, ?_, ?_, uint16_be redMax, uint16_be greenMax, uint16_be blueMax, rfl, rfl, rfl⟩
  · cases bigEndian <;> rfl
  · cases trueColour <;> rfl

end PixelFormat

namespace InitServer

/-- The part of ServerInit before the name. -/
def header (server : InitServer) : Bytes :=
  be 2 server.width.toNat ++ be 2 server.height.toNat ++ server.format.encode ++
    be 4 server.name.length

theorem length_header (server : InitServer) : server.header.length = 24 := by
  simp [header, PixelFormat.length_encode]

/-- A size and a name that the client accepts. -/
structure Acceptable (server : InitServer) : Prop where
  width_pos : 0 < server.width
  height_pos : 0 < server.height
  pixels : server.width.toNat * server.height.toNat ≤ maxFramebufferPixels
  name : server.name.length ≤ 4096

theorem parseServerInit_header {server : InitServer} (h : server.Acceptable) :
    parseServerInit server.header =
      .ok (server.width, server.height, server.format, server.name.length) := by
  have hwidth : server.header.take 2 = be 2 server.width.toNat := rfl
  have hheight : (server.header.drop 2).take 2 = be 2 server.height.toNat := rfl
  have hformat : (server.header.drop 4).take 16 = server.format.encode := rfl
  have hname : server.header.drop 20 = be 4 server.name.length := rfl
  have hw : ofBe (be 2 server.width.toNat) = server.width.toNat :=
    Words.ofBe_be_of_lt server.width.toNat_lt
  have hh : ofBe (be 2 server.height.toNat) = server.height.toNat :=
    Words.ofBe_be_of_lt server.height.toNat_lt
  have hn : ofBe (be 4 server.name.length) = server.name.length :=
    Words.ofBe_be_of_lt (lt_of_le_of_lt h.name (by decide))
  have hwpos : 0 < server.width.toNat := UInt16.lt_iff_toNat_lt.mp h.width_pos
  have hhpos : 0 < server.height.toNat := UInt16.lt_iff_toNat_lt.mp h.height_pos
  have hslice : FixedBytes.fromSlice 16 server.format.encode =
      some ⟨server.format.encode, server.format.length_encode⟩ := dif_pos _
  simp only [parseServerInit, hwidth, hheight, hformat, hname, hw, hh, hn, hslice,
    PixelFormat.decode_encode, UInt16.ofNat_toNat]
  rw [if_neg (by omega), if_neg (not_lt.mpr h.pixels), if_neg (not_lt.mpr h.name)]

end InitServer

/-! ### The client's messages, read by the server -/

section Messages

variable {α β : Type}

theorem reaches_setPixelFormat (format : PixelFormat) (g : ClientMessage → ServerProg β)
    (l : VncProg α) (is : List (Option UInt8)) (os : Bytes) :
    Duo.Reaches ⟨l, readClientMessage >>= g, is, encodeSetPixelFormat format ++ os⟩
      ⟨l, g (.setPixelFormat format.encode), is, os⟩ := by
  have hlength : 19 = ([0, 0, 0] ++ format.encode).length := by
    rw [List.length_append, format.length_encode]
    rfl
  rw [readClientMessage, bind_assoc]
  refine Duo.Reaches.trans (reaches_readN [0] rfl _ l is ([0, 0, 0] ++ format.encode ++ os)) ?_
  rw [if_pos rfl, bind_assoc]
  exact reaches_readN ([0, 0, 0] ++ format.encode) hlength _ l is os

theorem reaches_setEncodings (codes : Bytes) {count : Nat} (hcount : count < 2 ^ 16)
    (hlength : codes.length = 4 * count) (g : ClientMessage → ServerProg β)
    (l : VncProg α) (is : List (Option UInt8)) (os : Bytes) :
    Duo.Reaches ⟨l, readClientMessage >>= g, is, [2, 0] ++ be 2 count ++ codes ++ os⟩
      ⟨l, g (.setEncodings codes), is, os⟩ := by
  have hread : ofBe (be 2 count) = count := Words.ofBe_be_of_lt hcount
  have hhead : ([0] ++ be 2 count).drop 1 = be 2 count := rfl
  rw [readClientMessage, bind_assoc]
  refine Duo.Reaches.trans (reaches_readN [2] rfl _ l is ([0] ++ be 2 count ++ codes ++ os)) ?_
  rw [if_neg (by decide), if_pos rfl, bind_assoc, List.append_assoc]
  refine Duo.Reaches.trans (reaches_readN ([0] ++ be 2 count) rfl _ l is (codes ++ os)) ?_
  rw [hhead, hread, bind_assoc]
  exact reaches_readN codes hlength.symm _ l is os

theorem reaches_updateRequest (incremental : Bool) (x y width height : UInt16)
    (g : ClientMessage → ServerProg β) (l : VncProg α) (is : List (Option UInt8)) (os : Bytes) :
    Duo.Reaches
      ⟨l, readClientMessage >>= g, is,
        encodeFramebufferUpdateRequest incremental x y width height ++ os⟩
      ⟨l, g (.framebufferUpdateRequest ([incremental.toUInt8] ++ be 2 x.toNat ++ be 2 y.toNat ++
        be 2 width.toNat ++ be 2 height.toNat)), is, os⟩ := by
  rw [readClientMessage, bind_assoc]
  refine Duo.Reaches.trans (reaches_readN [3] rfl _ l is (([incremental.toUInt8] ++ be 2 x.toNat ++
    be 2 y.toNat ++ be 2 width.toNat ++ be 2 height.toNat) ++ os)) ?_
  rw [if_neg (by decide), if_neg (by decide), if_pos rfl, bind_assoc]
  exact reaches_readN ([incremental.toUInt8] ++ be 2 x.toNat ++ be 2 y.toNat ++
    be 2 width.toNat ++ be 2 height.toNat) rfl _ l is os

end Messages

/-! ### Both sides wait -/

/-- The client after its security phase against the server. -/
def initStart (server : InitServer) : Exchange ServerInit (Bytes × List ClientMessage) :=
  ⟨opening, server.initPhase, [], []⟩

/-- How a complete run has to end: the client does not wait for bytes that do
not come; and if it goes on, it has understood what the server said of itself,
the server has read the client's messages as they were sent, and no byte is
left over. -/
def InitAgreed (server : InitServer)
    (c : Exchange ServerInit (Bytes × List ClientMessage)) : Prop :=
  Duo.Ended c.left ∧
  ∀ init, c.left = .done init →
    init = ⟨server.width, server.height, server.format, Text.fromUtf8Lossy server.name⟩ ∧
    (∃ shared, c.right = .done ([shared], [.setPixelFormat preferredPixelFormat.encode,
      .setEncodings (be 4 Encoding.raw.code.toUInt32.toNat),
      .framebufferUpdateRequest ([0] ++ be 2 0 ++ be 2 0 ++ be 2 server.width.toNat ++
        be 2 server.height.toNat)])) ∧
    c.toLeft = [] ∧ c.toRight = []

/-- Every complete run ends so. -/
def InitAgrees (server : InitServer) : Prop :=
  ∀ c, Duo.Reaches (initStart server) c → Duo.Stuck c → InitAgreed server c

/-- **Initialisation never agrees**: against every server of the document both
sides wait for the other's first byte. -/
theorem init_never_agrees (server : InitServer) : ¬ InitAgrees server := by
  intro h
  exact (h (initStart server) .rfl (Duo.stuck_of_idle rfl rfl)).1

/-- A server with one pixel and no name. -/
def onePixelServer : InitServer := ⟨1, 1, preferredPixelFormat, []⟩

theorem init_disagrees : ¬ InitAgrees onePixelServer := by
  intro h
  exact (h (initStart onePixelServer) .rfl (Duo.stuck_of_idle rfl rfl)).1

/-! ### With ClientInit -/

/-- The opening messages of the client. -/
def openingBytes (server : InitServer) : Bytes :=
  encodeSetPixelFormat preferredPixelFormat ++
    ([2, 0] ++ be 2 1 ++ be 4 Encoding.raw.code.toUInt32.toNat) ++
    encodeFramebufferUpdateRequest false 0 0 server.width server.height

/-- The client reads an acceptable ServerInit whole and sends its messages. -/
theorem reaches_opening {β : Type} {server : InitServer} (h : server.Acceptable)
    (r : ServerProg β) :
    Duo.Reaches ⟨opening, r, server.serverInit.map some, []⟩
      ⟨.done ⟨server.width, server.height, server.format, Text.fromUtf8Lossy server.name⟩, r, [],
        openingBytes server⟩ := by
  have hbytes : server.serverInit.map some =
      server.header.map some ++ (server.name.map some ++ []) := by
    rw [List.append_nil, ← List.map_append]
    rfl
  have hencodings : encodeSetEncodings [.raw] =
      .ok ([2, 0] ++ be 2 1 ++ be 4 Encoding.raw.code.toUInt32.toNat) := rfl
  rw [hbytes, opening, initialise, bind_assoc]
  refine Duo.Reaches.trans
    (reaches_readExact server.header server.length_header.symm _ r _ []) ?_
  simp only [InitServer.parseServerInit_header h, bind_assoc]
  refine Duo.Reaches.trans (reaches_readExact server.name rfl _ r [] []) ?_
  refine Duo.Reaches.trans (reaches_writeAll (encodeSetPixelFormat preferredPixelFormat) _ r [] [])
    ?_
  simp only [hencodings, bind_assoc]
  refine Duo.Reaches.trans
    (reaches_writeAll ([2, 0] ++ be 2 1 ++ be 4 Encoding.raw.code.toUInt32.toNat) _ r [] _) ?_
  exact reaches_writeAll (encodeFramebufferUpdateRequest false 0 0 server.width server.height) _ r
    [] _

/-- The server reads them as they were sent. -/
theorem reaches_openingBytes {α : Type} (server : InitServer) (clientInit : Bytes)
    (l : VncProg α) :
    Duo.Reaches ⟨l, (do
        let first ← readClientMessage
        let second ← readClientMessage
        let third ← readClientMessage
        return (clientInit, [first, second, third]) : ServerProg (Bytes × List ClientMessage)), [],
        openingBytes server⟩
      ⟨l, .done (clientInit, [.setPixelFormat preferredPixelFormat.encode,
        .setEncodings (be 4 Encoding.raw.code.toUInt32.toNat),
        .framebufferUpdateRequest ([0] ++ be 2 0 ++ be 2 0 ++ be 2 server.width.toNat ++
          be 2 server.height.toNat)]), [], []⟩ := by
  rw [openingBytes, List.append_assoc]
  refine Duo.Reaches.trans (reaches_setPixelFormat preferredPixelFormat _ l [] _) ?_
  refine Duo.Reaches.trans (reaches_setEncodings (be 4 Encoding.raw.code.toUInt32.toNat)
    (show 1 < 2 ^ 16 by decide) rfl _ l [] _) ?_
  rw [← List.append_nil (encodeFramebufferUpdateRequest false 0 0 server.width server.height)]
  exact reaches_updateRequest false 0 0 server.width server.height _ l [] []

/-- With ClientInit sent first, the client and every server with a size and a
name that it accepts agree. -/
theorem clientInit_agrees {server : InitServer} (h : server.Acceptable) (shared : UInt8)
    (c : Exchange ServerInit (Bytes × List ClientMessage))
    (hc : Duo.Reaches ⟨writeAll [shared] >>= fun _ => opening, server.initPhase, [], []⟩ c)
    (hstuck : Duo.Stuck c) : InitAgreed server c := by
  have hend : Duo.Reaches ⟨writeAll [shared] >>= fun _ => opening, server.initPhase, [], []⟩
      ⟨.done ⟨server.width, server.height, server.format, Text.fromUtf8Lossy server.name⟩,
        .done ([shared], [.setPixelFormat preferredPixelFormat.encode,
          .setEncodings (be 4 Encoding.raw.code.toUInt32.toNat),
          .framebufferUpdateRequest ([0] ++ be 2 0 ++ be 2 0 ++ be 2 server.width.toNat ++
            be 2 server.height.toNat)]), [], []⟩ := by
    refine Duo.Reaches.trans (reaches_clientSends [shared] _ _ rfl) ?_
    refine Duo.Reaches.trans (reaches_sendBytes server.serverInit _ opening [] []) ?_
    refine Duo.Reaches.trans (reaches_opening h _) ?_
    exact reaches_openingBytes server [shared] _
  refine (Duo.forall_stuck_iff hend (Duo.stuck_of_idle trivial trivial) _).mpr ?_ c hc hstuck
  refine ⟨trivial, fun init heq => ?_⟩
  cases heq
  exact ⟨rfl, ⟨shared, rfl⟩, rfl, rfl⟩

end Vnc

end RdEngine
