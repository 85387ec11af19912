import ControlPlane.Proofs.Http.Decoding
import ControlPlane.Proofs.Json.RecordSize
import ControlPlane.Proofs.Service.LockForm
import ControlPlane.Proofs.Service.OperationRun

/-!
# What requests ask for fits

Targets and bodies are limited in size, so the names, tokens and documents in a request are short
enough for the rows of the store (`Request.fits_of_decode`): a request becomes an operation that
fits.
-/

namespace ControlPlane

namespace Http

/-! ## Targets -/

theorem length_le_of_readPath {s : List UInt8} {target : Target} (h : readPath s = some target) :
    target.path.length ≤ max 1 s.length := by
  unfold readPath at h
  dsimp only at h
  split at h
  · cases h
    have hkept := (List.takeWhile_sublist (· ≠ Ascii.hash) (l := s)).length_le
    have hpath := (List.takeWhile_sublist (· ≠ Ascii.question)
      (l := s.takeWhile (· ≠ Ascii.hash))).length_le
    dsimp only
    split
    · exact Nat.le_max_left 1 s.length
    · omega
  · cases h

theorem length_le_of_readAuthority {s : List UInt8} {target : Target}
    (h : readAuthority s = some target) : target.path.length ≤ max 1 s.length := by
  unfold readAuthority at h
  split at h
  · next a b rest =>
    dsimp only at h
    split at h
    · have hpath := length_le_of_readPath h
      rw [List.length_drop] at hpath
      simp only [List.length_cons]
      omega
    · cases h
  · cases h

/-- The path of a target is not longer than a target may be. -/
theorem Target.length_le_of_ofText? {text : String} {target : Target}
    (h : ofText? text = some target) : target.path.length ≤ maxTargetLength := by
  have hone : 1 ≤ maxTargetLength := by decide
  unfold ofText? at h
  dsimp only at h
  split at h
  · cases h
  · next hlength =>
    split at h
    · cases h
    · next b rest hs =>
      rw [hs] at hlength
      split at h
      · have hpath := length_le_of_readPath h
        rw [hs] at hpath
        omega
      · split at h
        · cases h
          rw [hs]
          exact Nat.le_of_not_lt hlength
        · split at h
          · next c rest' hdrop =>
            have hle := (List.dropWhile_sublist isSchemeByte (l := b :: rest)).length_le
            rw [hs] at hdrop
            rw [hdrop, List.length_cons] at hle
            split at h
            · have hpath := length_le_of_readAuthority h
              omega
            · cases h
          · cases h

/--
Whether the target of a request was read from a text, as that of every request that arrives is.
-/
def Request.Arrives (request : Request) : Prop :=
  ∃ text, Target.ofText? text = some request.target

/-! ## Names -/

theorem percentDecode_length_le (s : List UInt8) : (percentDecode s).length ≤ s.length := by
  fun_induction percentDecode s with
  | case1 => exact Nat.le_refl _
  | case2 => exact Nat.le_refl _
  | case3 => exact Nat.le_refl _
  | case4 b c rest byte _ ih =>
    simp only [List.length_cons] at ih ⊢
    omega
  | case5 b c rest _ ih =>
    simp only [List.length_cons] at ih ⊢
    omega
  | case6 a b c rest _ ih =>
    simp only [List.length_cons] at ih ⊢
    omega

theorem length_le_of_mem_splitOn {separator : UInt8} {s piece : List UInt8}
    (h : piece ∈ splitOn separator s) : piece.length ≤ s.length := by
  induction s generalizing piece with
  | nil =>
    rw [splitOn, List.mem_singleton] at h
    exact Nat.le_of_eq (congrArg List.length h)
  | cons b rest ih =>
    rw [splitOn] at h
    split at h
    · rcases List.mem_cons.1 h with rfl | hmem
      · exact Nat.zero_le _
      · exact Nat.le_succ_of_le (ih hmem)
    · split at h
      · rw [List.mem_singleton] at h
        subst h
        simp
      · next first pieces hs =>
        rw [hs] at ih
        rcases List.mem_cons.1 h with rfl | hmem
        · exact Nat.succ_le_succ (ih List.mem_cons_self)
        · exact Nat.le_succ_of_le (ih (List.mem_cons_of_mem first hmem))

theorem size_of_readSegment {parameter name : String} {segment : List UInt8}
    (h : readSegment parameter segment = .ok name) : name.utf8ByteSize ≤ segment.length := by
  unfold readSegment at h
  split at h
  · cases h
  · next text htext =>
    split at h
    · cases h
    · cases h
      have hbytes := congrArg ByteArray.size (Utf8.toUTF8_of_decode htext)
      have hsize : name.toUTF8.size = name.utf8ByteSize := rfl
      have hle := percentDecode_length_le segment
      rw [hsize] at hbytes
      rw [hbytes]
      exact hle

/-- The segment that names a member. -/
def Endpoint.segment? : Endpoint → Option (List UInt8)
  | .states | .locks | .gates => none
  | .state segment | .lock segment | .unlock segment | .gate segment | .config segment => some segment

theorem Endpoint.length_le_of_segment? {path segment : List UInt8} {endpoint : Endpoint}
    (h : ofPath? path = some endpoint) (hsegment : endpoint.segment? = some segment) :
    segment.length ≤ path.length := by
  unfold ofPath? at h
  split at h
  · next first collection hsplit =>
    split at h
    · unfold ofCollection? at h
      split_ifs at h <;> cases h <;> cases hsegment
    · cases h
  · next first collection member hsplit =>
    have hmem : member ∈ splitOn Ascii.slash path := by
      rw [hsplit]
      simp
    have hle := length_le_of_mem_splitOn hmem
    split at h
    · unfold ofMember? at h
      split_ifs at h <;> cases h <;> cases hsegment <;> exact hle
    · cases h
  · cases h

/-! ## Operations -/

/-- Whether a parameter of an endpoint is a name. -/
def Endpoint.Calls (endpoint : Endpoint) (parameter name : String) : Prop :=
  ∃ segment ∈ endpoint.segment?, readSegment parameter segment = .ok name

/-- Where an operation that stores a record comes from: the segment of an endpoint and a body. -/
def Endpoint.Asks (endpoint : Endpoint) (body : ByteArray) : Operation → Prop
  | .putState name _ payload => endpoint.Calls "name" name ∧ readBody body = .ok payload
  | .acquire name request =>
    endpoint.Calls "name" name ∧ body.size ≤ maxBodySize ∧ LockRequest.parse body = .ok request
  | .createGate key enabled =>
    body.size ≤ maxBodySize ∧ newGateShape.parse body.data.toList = .ok (key, enabled, ())
  | .setConfig key value =>
    endpoint.Calls "key" key ∧ body.size ≤ maxBodySize ∧ Utf8.decode body = .ok value
  | _ => True

/-- A name is not longer than the path that it stands in. -/
theorem Endpoint.Calls.size_le {path : List UInt8} {endpoint : Endpoint} {parameter name : String}
    (h : endpoint.Calls parameter name) (hpath : ofPath? path = some endpoint) :
    name.utf8ByteSize ≤ path.length := by
  obtain ⟨segment, hsegment, hname⟩ := h
  exact (size_of_readSegment hname).trans (length_le_of_segment? hpath hsegment)

theorem Endpoint.asks_of_means {endpoint : Endpoint} {method : Method} {query : List UInt8}
    {body : ByteArray} {op : Operation} (h : endpoint.Means query body method op) :
    endpoint.Asks body op := by
  cases h with
  | putState hname _ hbody =>
    have hread : readBody body = .ok body := if_neg (Nat.not_lt.mpr hbody)
    exact ⟨⟨_, rfl, hname⟩, hread⟩
  | acquire hname hbody hparse => exact ⟨⟨_, rfl, hname⟩, hbody, hparse⟩
  | createGate hbody hparse _ => exact ⟨hbody, hparse⟩
  | setConfig hkey hbody hvalue => exact ⟨⟨_, rfl, hkey⟩, hbody, hvalue⟩
  | _ => trivial

theorem Request.asks_of_decode {peers : PeerList} {request : Request} {op : Operation}
    (h : request.decode peers = .ok op) :
    ∃ endpoint : Endpoint, Endpoint.ofPath? request.target.path = some endpoint ∧
      endpoint.Asks request.body op := by
  obtain ⟨endpoint, hpath, -, hmeans⟩ := Request.means_of_decode h
  exact ⟨endpoint, hpath, endpoint.asks_of_means hmeans⟩

/-- A request that arrives asks for an operation that fits. -/
theorem Request.fits_of_decode {peers : PeerList} {request : Request} {op : Operation}
    (harrives : request.Arrives) (h : request.decode peers = .ok op) : op.Fits := by
  obtain ⟨text, htext⟩ := harrives
  obtain ⟨endpoint, hpath, hasks⟩ := asks_of_decode h
  have htarget : request.target.path.length ≤ maxTargetLength := Target.length_le_of_ofText? htext
  have hlimit : 4 * maxBodySize + maxTargetLength < RowForm.lengthLimit := by
    decide
  cases op with
  | putState name token payload =>
    obtain ⟨hname, hpayload⟩ := hasks
    have hsize := hname.size_le hpath
    obtain ⟨rfl, hbody⟩ := of_readBody hpayload
    refine ⟨?_, ?_⟩
    · show name.utf8ByteSize < _
      omega
    · show request.body.size < _
      omega
  | acquire name lockRequest =>
    obtain ⟨hname, hbody, hparse⟩ := hasks
    have hsize := hname.size_le hpath
    obtain ⟨hholder, hshape⟩ := LockRequest.of_parse hparse
    have htoken : lockRequest.token.utf8ByteSize ≤ 4 * request.body.data.toList.length :=
      (Json.Shape.parse_within hshape).1
    have hlength : lockRequest.holder.utf8ByteSize = request.body.size := by
      rw [← hholder]
      rfl
    have hdata : request.body.data.toList.length = request.body.size := rfl
    refine ⟨?_, ?_, ?_⟩
    · show name.utf8ByteSize < _
      omega
    · show lockRequest.token.utf8ByteSize < _
      omega
    · show lockRequest.holder.utf8ByteSize < _
      omega
  | createGate key enabled =>
    obtain ⟨hbody, hshape⟩ := hasks
    have hkey : key.utf8ByteSize ≤ 4 * request.body.data.toList.length :=
      (Json.Shape.parse_within hshape).1
    have hdata : request.body.data.toList.length = request.body.size := rfl
    show key.utf8ByteSize < _
    omega
  | setConfig key value =>
    obtain ⟨hkey, hbody, hvalue⟩ := hasks
    have hsize := hkey.size_le hpath
    have hlength : value.utf8ByteSize = request.body.size := by
      rw [← Utf8.toUTF8_of_decode hvalue]
      rfl
    refine ⟨?_, ?_⟩
    · show key.utf8ByteSize < _
      omega
    · show value.utf8ByteSize < _
      omega
  | _ => trivial

end Http

end ControlPlane
