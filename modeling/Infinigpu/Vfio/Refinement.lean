import Infinigpu.Vfio.Requests

/-!
# The registers through the socket

What reaches the device over the socket is a run of accesses to it: the reads of region 0 are answered with what the
registers read, and the device is left as the accesses leave it, whatever other requests come in between
(`session_refines`).
-/

namespace Infinigpu

namespace Device

/-- What the reads among the accesses return. -/
def reads (s : Device) : List Access → List (List UInt8)
  | [] => []
  | .read offset len :: as => s.readBar0 offset len :: s.reads as
  | a :: as => (s.access a).reads as

private theorem reads_append (s : Device) (as as' : List Access) :
    s.reads (as ++ as') = s.reads as ++ (s.run as).reads as' := by
  induction as generalizing s with
  | nil => rfl
  | cons a as ih =>
    cases a with
    | read offset len => exact congrArg _ (ih s)
    | write env offset data => exact ih _
    | reset => exact ih _
    | map iova size host => exact ih _
    | unmap iova => exact ih _
    | unmapAll => exact ih _
    | stores f => exact ih _

private theorem run_append (s : Device) (as as' : List Access) : s.run (as ++ as') = (s.run as).run as' :=
  List.foldl_append

end Device

namespace Vfio

namespace Request

/-- The access that a request makes, if any. -/
def access (env : Env) (r : Request File) : Option Device.Access :=
  match r.body with
  | .regionRead cmd => if cmd.region = pciBar0RegionIndex then some (.read cmd.offset cmd.count.toNat) else none
  | .regionWrite offset region data => if region = pciBar0RegionIndex then some (.write env offset data) else none
  | .dmaMap cmd =>
    match r.fds with
    | [f] => some (.map cmd.address cmd.size (f.mmap cmd.offset cmd.size))
    | _ => none
  | .dmaUnmap cmd => some (if cmd.flags &&& dmaUnmapAll = dmaUnmapAll then .unmapAll else .unmap cmd.address)
  | .deviceReset => some .reset
  | _ => none

/-- What the reply to a read of the registers carries. -/
def registerBytes (p : Request File × List UInt8) : Option (List UInt8) :=
  match p.1.body with
  | .regionRead cmd =>
    if cmd.region = pciBar0RegionIndex then some (p.2.drop (Header.size + RegionAccess.bodySize)) else none
  | _ => none

end Request

/-- What happens between the client and the device: requests arrive, or the guest stores to its memory. -/
inductive Event where
  | requests (rs : List (Request File))
  | stores (f : Memory → Memory)

namespace Event

def sent : Event → List (Request File)
  | requests rs => rs
  | stores _ => []

def accesses (env : Env) : Event → List Device.Access
  | requests rs => rs.filterMap (Request.access env)
  | stores f => [.stores f]

end Event

private theorem filterMap_cons_toList {α β : Type*} (f : α → Option β) (a : α) (l : List α) :
    (a :: l).filterMap f = (f a).toList ++ l.filterMap f := by
  rw [List.filterMap_cons]
  cases f a <;> rfl

namespace Endpoint

variable (env : Env) (acceptsCapabilities : List UInt8 → Bool) (versionData : List UInt8)

/-- The device and what has been sent to the client. -/
def happen (srv : Server File Endpoint) (s : Endpoint × List UInt8) : Event → Endpoint × List UInt8
  | .requests rs =>
    let served := srv.run s.1 (rs.flatMap Request.wire)
    (served.state, s.2 ++ served.sent)
  | .stores f => ({ s.1 with dev := s.1.dev.access (.stores f) }, s.2)

/-- Interrupts are set up beside the registers. -/
private theorem setIrqs_dev (index flags start count : UInt32) (fds : List File) (s : Endpoint) :
    (setIrqs index flags start count fds s).2.dev = s.dev := by
  unfold setIrqs
  split
  · rfl
  · split <;> rfl

/-- Reading a region changes nothing. -/
private theorem regionRead_state (region : UInt32) (offset : UInt64) (n : Nat) (s : Endpoint) :
    (regionRead region offset n s).2 = s := by
  unfold regionRead
  split
  · rfl
  · split <;> rfl

private theorem regionWrite_dev {region : UInt32} (h : region ≠ pciBar0RegionIndex) (offset : UInt64)
    (data : List UInt8) (s : Endpoint) : (regionWrite env region offset data s).2.dev = s.dev := by
  unfold regionWrite
  rw [if_neg h]
  split <;> rfl

/-- The region of the registers exists. -/
private theorem bar0_exists : ¬ pciBar0RegionIndex.toNat ≥
    (server env acceptsCapabilities versionData).regions.length := by
  show ¬ pciBar0RegionIndex.toNat ≥ pciNumRegions
  decide

/-- The fixed part of a reply is before the data. -/
private theorem drop_reply (h : Header) (cmd : RegionAccess) (data : List UInt8) :
    (h.toBytes ++ cmd.toBytes ++ data).drop (Header.size + RegionAccess.bodySize) = data := by
  have hlen : (h.toBytes ++ cmd.toBytes).length = Header.size + RegionAccess.bodySize := by
    rw [List.length_append, Header.toBytes_length, RegionAccess.toBytes_length]
  rw [← hlen, List.drop_left]

private theorem handle_regionRead (r : Request File) {cmd : RegionAccess} (hbody : r.body = .regionRead cmd)
    (s : Endpoint) :
    ((server env acceptsCapabilities versionData).handle s r).1 = s ∧
      (cmd.region = pciBar0RegionIndex →
        ((server env acceptsCapabilities versionData).handle s r).2.drop (Header.size + RegionAccess.bodySize) =
          s.dev.readBar0 cmd.offset cmd.count.toNat) := by
  have hanswer : (server env acceptsCapabilities versionData).answer s r =
      (server env acceptsCapabilities versionData).regionRead r.header cmd s := by simp only [Server.answer, hbody]
  have hstate : ((server env acceptsCapabilities versionData).backend.regionRead cmd.region cmd.offset
      cmd.count.toNat s).2 = s := regionRead_state cmd.region cmd.offset cmd.count.toNat s
  simp only [Server.handle, hanswer, Server.regionRead]
  split
  · next hregion =>
    exact ⟨rfl, fun hbar => absurd (hbar ▸ hregion) (bar0_exists env acceptsCapabilities versionData)⟩
  · refine ⟨by split <;> exact hstate, fun hbar => ?_⟩
    rw [hbar]
    exact drop_reply ..

/-- A request does to the device what its access does, and is answered with what the access reads. -/
private theorem handle_access (r : Request File) (s : Endpoint) :
    ((server env acceptsCapabilities versionData).handle s r).1.dev = s.dev.run (r.access env).toList ∧
      (Request.registerBytes (r, ((server env acceptsCapabilities versionData).handle s r).2)).toList =
        s.dev.reads (r.access env).toList := by
  cases hbody : r.body with
  | version cmd data =>
    simp only [Server.handle, Server.answer, Request.access, Request.registerBytes, hbody, Server.version]
    refine ⟨?_, rfl⟩
    split
    · rfl
    · split <;> rfl
  | dmaMap cmd =>
    simp only [Server.handle, Server.answer, Request.access, Request.registerBytes, hbody, Server.dmaMap]
    rcases hfds : r.fds with _ | ⟨f, _ | ⟨f', fds⟩⟩
    · exact ⟨rfl, rfl⟩
    · refine ⟨?_, rfl⟩
      rw [if_neg (show ¬ [f].length > 1 from Nat.lt_irrefl 1)]
      rfl
    · exact ⟨rfl, rfl⟩
  | dmaUnmap cmd =>
    simp only [Server.handle, Server.answer, Request.access, Request.registerBytes, hbody, Server.dmaUnmap, server,
      backend, dmaUnmap, Server.finished]
    by_cases hall : cmd.flags &&& dmaUnmapAll = dmaUnmapAll
    · simp only [if_pos hall]
      exact ⟨rfl, rfl⟩
    · simp only [if_neg hall]
      exact ⟨rfl, rfl⟩
  | deviceGetInfo cmd =>
    simp only [Server.handle, Server.answer, Request.access, Request.registerBytes, hbody]
    exact ⟨rfl, rfl⟩
  | deviceGetRegionInfo cmd =>
    simp only [Server.handle, Server.answer, Request.access, Request.registerBytes, hbody, Server.deviceGetRegionInfo]
    split <;> exact ⟨rfl, rfl⟩
  | getIrqInfo cmd =>
    simp only [Server.handle, Server.answer, Request.access, Request.registerBytes, hbody, Server.getIrqInfo]
    split <;> exact ⟨rfl, rfl⟩
  | setIrqs cmd trailing =>
    simp only [Server.handle, Server.answer, Request.access, Request.registerBytes, hbody, Server.setIrqs]
    split
    · exact ⟨rfl, rfl⟩
    · split
      · exact ⟨rfl, rfl⟩
      · have hdev := setIrqs_dev cmd.index cmd.flags cmd.start cmd.count r.fds s
        exact ⟨hdev, rfl⟩
  | regionRead cmd =>
    obtain ⟨hstate, hdata⟩ := handle_regionRead env acceptsCapabilities versionData r hbody s
    rw [hstate]
    simp only [Request.access, Request.registerBytes, hbody]
    by_cases hbar : cmd.region = pciBar0RegionIndex
    · rw [if_pos hbar, if_pos hbar, hdata hbar]
      exact ⟨rfl, rfl⟩
    · rw [if_neg hbar, if_neg hbar]
      exact ⟨rfl, rfl⟩
  | regionWrite offset region data =>
    simp only [Server.handle, Server.answer, Request.access, Request.registerBytes, hbody, Server.regionWrite]
    refine ⟨?_, ?_⟩
    · by_cases hbar : region = pciBar0RegionIndex
      · subst hbar
        rw [if_neg (bar0_exists env acceptsCapabilities versionData)]
        rfl
      · rw [if_neg hbar]
        split
        · rfl
        · exact regionWrite_dev env hbar offset data s
    · split <;> rfl
  | deviceReset =>
    simp only [Server.handle, Server.answer, Request.access, Request.registerBytes, hbody, Server.deviceReset]
    exact ⟨rfl, rfl⟩
  | other raw body =>
    simp only [Server.handle, Server.answer, Request.access, Request.registerBytes, hbody]
    exact ⟨rfl, rfl⟩

/-- Requests in order do what their accesses do, and the replies carry what the accesses read. -/
private theorem handleAll_accesses (rs : List (Request File)) (s : Endpoint) :
    (Framing.handleAll (server env acceptsCapabilities versionData).handle s rs).1.dev =
        s.dev.run (rs.filterMap (Request.access env)) ∧
      (rs.zip (Framing.handleAll (server env acceptsCapabilities versionData).handle s rs).2).filterMap
          Request.registerBytes =
        s.dev.reads (rs.filterMap (Request.access env)) := by
  induction rs generalizing s with
  | nil => exact ⟨rfl, rfl⟩
  | cons r rs ih =>
    obtain ⟨hdev, hbytes⟩ := handle_access env acceptsCapabilities versionData r s
    obtain ⟨hdevs, hread⟩ := ih ((server env acceptsCapabilities versionData).handle s r).1
    rw [Framing.handleAll_cons, List.zip_cons_cons, filterMap_cons_toList, filterMap_cons_toList, Device.run_append,
      Device.reads_append, hbytes, ← hdev]
    exact ⟨hdevs, congrArg _ hread⟩

private theorem session_from (hversion : Header.size + Version.size + versionData.length + 1 < 2 ^ 32)
    (es : List Event) (hrs : ∀ r ∈ es.flatMap Event.sent,
    r.WellFormed ∧ (server env acceptsCapabilities versionData).Takes r)
    (s : Endpoint) (out : List UInt8) :
    let final := es.foldl (happen (server env acceptsCapabilities versionData)) (s, out)
    final.1.dev = s.dev.run (es.flatMap (Event.accesses env)) ∧
      ∃ replies : List (List UInt8), final.2 = out ++ replies.flatten ∧
        List.Forall₂ Request.Answered (es.flatMap Event.sent) replies ∧
        ((es.flatMap Event.sent).zip replies).filterMap Request.registerBytes =
          s.dev.reads (es.flatMap (Event.accesses env)) := by
  induction es generalizing s out with
  | nil => exact ⟨rfl, [], (List.append_nil out).symm, .nil, rfl⟩
  | cons e es ih =>
    rw [List.flatMap_cons, List.forall_mem_append] at hrs
    cases e with
    | stores f => exact ih hrs.2 _ out
    | requests rs =>
      have hrun := Server.run_handles rs hrs.1 s
      obtain ⟨hdevs, hread⟩ := handleAll_accesses env acceptsCapabilities versionData rs s
      have hanswered : List.Forall₂ Request.Answered rs
          (Framing.handleAll (server env acceptsCapabilities versionData).handle s rs).2 :=
        Framing.handleAll_forall₂ (fun r hr s =>
          Server.handle_answered (server_sized env acceptsCapabilities hversion) (hrs.1 r hr).1 s) s
      obtain ⟨hdev, replies, hout, hall, hzip⟩ := ih hrs.2
        (Framing.handleAll (server env acceptsCapabilities versionData).handle s rs).1
        (out ++ (Framing.handleAll (server env acceptsCapabilities versionData).handle s rs).2.flatten)
      simp only [List.foldl_cons, happen, hrun]
      refine ⟨?_, _ ++ replies, ?_, List.rel_append hanswered hall, ?_⟩
      · rw [hdev, hdevs, ← Device.run_append]
        rfl
      · rw [hout, List.flatten_append, List.append_assoc]
      · have hsent : (Event.requests rs :: es).flatMap Event.sent = rs ++ es.flatMap Event.sent := rfl
        have haccesses : (Event.requests rs :: es).flatMap (Event.accesses env) =
            rs.filterMap (Request.access env) ++ es.flatMap (Event.accesses env) := rfl
        rw [hsent, haccesses, List.zip_append (Framing.handleAll_length _ s rs).symm, List.filterMap_append,
          Device.reads_append, ← hdevs, hread, ← hzip]

/-- What the socket carries between a client and the device is a run of accesses to it.  Whatever well-formed requests
arrive, none of them writing data to a region that does not exist, and whatever the guest stores between them, the
device is left as the accesses among them leave it, beside those stores; each request is answered once, except that a
posted write gets no reply; and the replies to reads of the registers carry what these accesses read. -/
theorem session_refines (hversion : Header.size + Version.size + versionData.length + 1 < 2 ^ 32) (es : List Event)
    (hrs : ∀ r ∈ es.flatMap Event.sent, r.WellFormed ∧ (server env acceptsCapabilities versionData).Takes r)
    (s : Endpoint) :
    let final := es.foldl (happen (server env acceptsCapabilities versionData)) (s, [])
    final.1.dev = s.dev.run (es.flatMap (Event.accesses env)) ∧
      ∃ replies : List (List UInt8), final.2 = replies.flatten ∧
        List.Forall₂ Request.Answered (es.flatMap Event.sent) replies ∧
        ((es.flatMap Event.sent).zip replies).filterMap Request.registerBytes =
          s.dev.reads (es.flatMap (Event.accesses env)) :=
  session_from env acceptsCapabilities versionData hversion es hrs s []

/-- The guest stores a word to the page that is mapped for it, between requests. -/
def threeEvents : List Event :=
  [.requests [⟨1, 0, 0, [⟨0, fun _ _ => some 0⟩], .dmaMap ⟨32, 3, 0, 0x8000, 0x1000⟩⟩],
    .stores fun m => m.store 0 [1, 2, 3, 4], .requests Server.threeRequests]

theorem session_refines_three :
    let final := threeEvents.foldl (happen Server.plainServer) (Server.plainEndpoint, [])
    final.1.dev = Server.plainEndpoint.dev.run (threeEvents.flatMap (Event.accesses .idle)) ∧
      ∃ replies : List (List UInt8), final.2 = replies.flatten ∧
        List.Forall₂ Request.Answered (threeEvents.flatMap Event.sent) replies ∧
        ((threeEvents.flatMap Event.sent).zip replies).filterMap Request.registerBytes =
          Server.plainEndpoint.dev.reads (threeEvents.flatMap (Event.accesses .idle)) := by
  refine session_refines .idle (fun _ => true) [] (by decide) threeEvents ?_ Server.plainEndpoint
  simp only [threeEvents, List.flatMap_cons, List.flatMap_nil, Event.sent, List.append_nil, List.nil_append,
    List.singleton_append, List.forall_mem_cons]
  exact ⟨⟨⟨by decide, by decide, by rintro _ _ ⟨⟩, by rintro _ ⟨⟩, by rintro _ _ ⟨⟩⟩, by rintro _ _ _ ⟨⟩⟩,
    fun r hr => ⟨Server.threeRequests_wellFormed r hr, Server.threeRequests_taken rfl r hr⟩⟩

end Endpoint

end Vfio

end Infinigpu
