import RasPiZeroCam.Camera.Manager

/-!
`CameraManager::open` call by call, and what it leaves behind when a call fails.

* `CameraManager`: the members that `open` and `close` set, and the cameras that are acquired.
* `CameraManager.openCamera`: the helpers of `open` in order, each with the branch that undoes the
  ones before it; `openCamera_error` and `openCamera_ok` say what it leaves.
* `openCamera_refines`, `openCamera_opens`: it is what the main thread of `Manager` does.
* `closed_after_failed_opens_iff`: `open` calls that fail leave the object closed unless one of them
  made the allocator, and `open` then has one request for each buffer unless one of them made a
  request.
-/

namespace RasPiZeroCam

open Transition System

/-- `libcamera::CameraConfiguration::Status`. -/
inductive ConfigurationStatus where
  | valid
  | adjusted
  | invalid
  deriving DecidableEq

/-- What the calls for a buffer of the allocator return. -/
structure BufferCalls where
  fd : ℤ
  planes : List ℕ
  mmap : Option ℕ             -- `none` is `MAP_FAILED`
  createRequest : Bool        -- not null
  addBuffer : ℤ

/-- What the calls of one `open` return. -/
structure OpenCalls where
  startManager : ℤ            -- `cam_manager_->start()`
  cameras : List String       -- the ids of `cam_manager_->cameras()`
  get : Bool                  -- `cam_manager_->get(..)` is not null
  acquire : ℤ
  generateConfiguration : Bool  -- not null
  validate : ConfigurationStatus
  configure : ℤ
  stride : UInt32             -- `sc.stride`, after `configure`
  allocate : ℤ
  buffers : List BufferCalls  -- of `allocator_->buffers(stream_)`
  startCamera : ℤ             -- `camera_->start()`, which nobody looks at

/-- `cam_manager_`. -/
inductive LibcameraManager where
  | null
  | started
  | stopped
  deriving DecidableEq

/-- A `CameraManager`, as far as `open` and `close` set it. -/
structure CameraManager where
  camManager : LibcameraManager
  camera : Option String
  allocator : Option (List FrameBuffer)  -- and its buffers
  mapped : List (FrameBuffer × MappedBuffer)
  requests : List Request
  running : Bool
  resolution : Resolution
  stride : UInt32
  acquired : List String      -- the cameras that are acquired and not released
  queueCalls : List Request   -- the calls of `queueRequest` in `start_streaming`
  allocated : ℕ               -- buffers allocated so far

namespace CameraManager

/-- `CameraManager(queue)`. -/
def new : CameraManager where
  camManager := .null
  camera := none
  allocator := none
  mapped := []
  requests := []
  running := false
  resolution := .medium
  stride := 0
  acquired := []
  queueCalls := []
  allocated := 0

/-! ### The helpers -/

/-- `cam_manager_->stop()`. -/
def stopManager (s : CameraManager) : CameraManager := { s with camManager := .stopped }

/-- `release_camera`. -/
def releaseCamera (s : CameraManager) : CameraManager :=
  match s.camera with
  | none => s
  | some camera =>
      { s with
        acquired := s.acquired.erase camera
        camera := none }

/-- `unmap_buffers`. -/
def unmapBuffers (s : CameraManager) : CameraManager := { s with mapped := [] }

/-- `init_camera_manager`; a helper that returns false is an `error`, with what it has set. -/
def initCameraManager (o : OpenCalls) (s : CameraManager) : Except CameraManager CameraManager :=
  if o.startManager ≠ 0 then .error { s with camManager := .null }
  else .ok { s with camManager := .started }

/-- `acquire_camera`. -/
def acquireCamera (o : OpenCalls) (s : CameraManager) : Except CameraManager CameraManager :=
  match o.cameras with
  | [] => .error s
  | camera :: _ =>
      if !o.get then .error { s with camera := none }
      else if o.acquire ≠ 0 then .error { s with camera := none }
      else
        .ok { s with
          camera := some camera
          acquired := camera :: s.acquired }

/-- `configure_stream`. -/
def configureStream (o : OpenCalls) (s : CameraManager) : Except CameraManager CameraManager :=
  if !o.generateConfiguration then .error s
  else if o.validate = .invalid then .error s
  else if o.configure ≠ 0 then .error s
  else .ok { s with stride := o.stride }

/-- The buffers of the allocator, the first of them numbered `n`. -/
def allocatorBuffers (n : ℕ) (buffers : List BufferCalls) : List (FrameBuffer × BufferCalls) :=
  (buffers.zipIdx n).map fun b => (⟨b.2, b.1.fd, b.1.planes⟩, b.1)

/-- The loop of `allocate_and_map_buffers`. -/
def mapBuffers :
    List (FrameBuffer × BufferCalls) → CameraManager → Except CameraManager CameraManager
  | [], s => .ok s
  | (buffer, o) :: rest, s =>
      match o.mmap with
      | none => .error s.unmapBuffers
      | some ptr =>
          mapBuffers rest { s with mapped := s.mapped ++ [(buffer, ⟨ptr, buffer.planes.sum⟩)] }

/-- `allocate_and_map_buffers`. -/
def allocateAndMapBuffers (o : OpenCalls) (s : CameraManager) :
    Except CameraManager CameraManager :=
  let s := { s with allocator := some [] }
  if o.allocate < 0 then .error s
  else
    let buffers := allocatorBuffers s.allocated o.buffers
    mapBuffers buffers
      { s with
        allocator := some (buffers.map (·.1))
        allocated := s.allocated + o.buffers.length }

/-- The loop of `create_requests`. -/
def createRequests :
    List (FrameBuffer × BufferCalls) → CameraManager → Except CameraManager CameraManager
  | [], s => .ok s
  | (buffer, o) :: rest, s =>
      if !o.createRequest then .error s
      else if o.addBuffer < 0 then .error s
      else createRequests rest { s with requests := s.requests ++ [⟨buffer⟩] }

/-- `start_streaming`: `queueRequest` for each of `requests_`, in order. -/
def startStreaming (s : CameraManager) : CameraManager := { s with queueCalls := s.requests }

/-- `open(res)`. -/
def openCamera (res : Resolution) (o : OpenCalls) (s : CameraManager) :
    Except CameraManager CameraManager := do
  let n := s.allocated
  let s ← initCameraManager o { s with resolution := res }
  let s ← (acquireCamera o s).mapError stopManager
  let s ← (configureStream o s).mapError fun s => s.releaseCamera.stopManager
  let s ← (allocateAndMapBuffers o s).mapError fun s => s.releaseCamera.stopManager
  let s ← (createRequests (allocatorBuffers n o.buffers) s).mapError fun s =>
    s.unmapBuffers.releaseCamera.stopManager
  return { s.startStreaming with running := true }

/-- `close`. -/
def close (s : CameraManager) : CameraManager :=
  if !s.running then s
  else
    let s := { s with running := false }
    let s := { s with requests := [] }.unmapBuffers
    { s with allocator := none }.releaseCamera.stopManager

end CameraManager

/-! ### What decides whether a helper fails -/

namespace OpenCalls

/-- The calls of `acquire_camera` succeed. -/
def Acquired (o : OpenCalls) : Prop := o.cameras ≠ [] ∧ o.get = true ∧ o.acquire = 0

/-- Those of `configure_stream` succeed. -/
def StreamConfigured (o : OpenCalls) : Prop :=
  o.generateConfiguration = true ∧ o.validate ≠ .invalid ∧ o.configure = 0

/-- `open` gets as far as making the allocator. -/
def MakesAllocator (o : OpenCalls) : Prop :=
  o.startManager = 0 ∧ o.Acquired ∧ o.StreamConfigured

/-- The calls of `allocate_and_map_buffers` succeed. -/
def Mapped (o : OpenCalls) : Prop := 0 ≤ o.allocate ∧ ∀ b ∈ o.buffers, b.mmap ≠ none

end OpenCalls

/-- The calls of `create_requests` for a buffer succeed. -/
def BufferCalls.Makes (b : BufferCalls) : Prop := b.createRequest = true ∧ 0 ≤ b.addBuffer

/-- `open` gets as far as making a request. -/
def OpenCalls.MakesRequest (o : OpenCalls) : Prop :=
  o.MakesAllocator ∧ o.Mapped ∧ ∃ b ∈ o.buffers.head?, b.Makes

namespace CameraManager

/-- Nothing is acquired, mapped or running. -/
structure Released (s : CameraManager) : Prop where
  camManager : s.camManager ≠ .started
  camera : s.camera = none
  acquired : s.acquired = []
  mapped : s.mapped = []
  running : s.running = false

/-- **Closed**: and there is neither an allocator nor a request. -/
structure Closed (s : CameraManager) : Prop extends s.Released where
  allocator : s.allocator = none
  requests : s.requests = []

/-- The requests of `requests_` are one for each buffer of the allocator, and `start_streaming`
queued each buffer once. -/
def OneRequestEach (s : CameraManager) : Prop :=
  ∃ buffers, s.allocator = some buffers ∧ buffers.Nodup ∧
    (s.requests.map (·.buffer)).Perm buffers ∧ (s.queueCalls.map (·.buffer)).Perm buffers

/-- Calls of `open` that all return false. -/
inductive FailedOpens : CameraManager → List (Resolution × OpenCalls) → CameraManager → Prop
  | nil (s : CameraManager) : FailedOpens s [] s
  | cons {s t u : CameraManager} {res : Resolution} {o : OpenCalls}
      {os : List (Resolution × OpenCalls)} :
      s.openCamera res o = .error t → FailedOpens t os u → FailedOpens s ((res, o) :: os) u

variable {s t : CameraManager} {res : Resolution} {o : OpenCalls}

end CameraManager

/-! ### What the main thread of `Manager` sees -/

/-- What `Manager` keeps of the calls for a buffer. -/
def BufferCalls.outcome (b : BufferCalls) : BufferOutcome where
  fd := b.fd
  planes := b.planes
  mmap := b.mmap
  createRequest := b.createRequest
  addBuffer := decide (0 ≤ b.addBuffer)

namespace OpenCalls

instance (o : OpenCalls) : Decidable o.Acquired := by
  unfold Acquired
  infer_instance

instance (o : OpenCalls) : Decidable o.StreamConfigured := by
  unfold StreamConfigured
  infer_instance

/-- What it keeps of the calls of `open`. -/
def outcome (o : OpenCalls) : OpenOutcome where
  initCameraManager := decide (o.startManager = 0)
  acquireCamera := decide o.Acquired
  configureStream := if o.StreamConfigured then some o.stride else none
  allocate := decide (0 ≤ o.allocate)
  buffers := o.buffers.map BufferCalls.outcome
  start := decide (o.startCamera = 0)

end OpenCalls

namespace CameraManager

/-- The buffers of an allocator, and what `Manager` keeps of the calls for them. -/
def outcomes (buffers : List (FrameBuffer × BufferCalls)) : List (FrameBuffer × BufferOutcome) :=
  buffers.map fun b => (b.1, b.2.outcome)

variable {s t : CameraManager} {res : Resolution} {o : OpenCalls}

lemma outcomes_allocatorBuffers (n : ℕ) (buffers : List BufferCalls) :
    outcomes (allocatorBuffers n buffers) =
      Manager.allocatorBuffers n (buffers.map BufferCalls.outcome) := by
  simp only [outcomes, allocatorBuffers, Manager.allocatorBuffers, List.zipIdx_map, List.map_map]
  rfl

@[simp] lemma outcomes_cons (buffer : FrameBuffer) (o : BufferCalls)
    (rest : List (FrameBuffer × BufferCalls)) :
    outcomes ((buffer, o) :: rest) = (buffer, o.outcome) :: outcomes rest := rfl

/-- The loop of `allocate_and_map_buffers`, from outside. -/
lemma mapBuffers_eq (buffers : List (FrameBuffer × BufferCalls)) (s : CameraManager) :
    mapBuffers buffers s = match Manager.mapBuffers (outcomes buffers) with
      | none => .error s.unmapBuffers
      | some mapped => .ok { s with mapped := s.mapped ++ mapped } := by
  induction buffers generalizing s with
  | nil => simp [mapBuffers, outcomes, Manager.mapBuffers]
  | cons b rest ih =>
      obtain ⟨buffer, o⟩ := b
      simp only [mapBuffers, outcomes_cons, Manager.mapBuffers, BufferCalls.outcome]
      cases o.mmap with
      | none => rfl
      | some ptr =>
          simp only [ih]
          cases Manager.mapBuffers (outcomes rest) with
          | none => rfl
          | some mapped => simp

/-- The loop of `create_requests`, from outside: what it made stays in `requests_`. -/
lemma createRequests_eq (buffers : List (FrameBuffer × BufferCalls)) (s : CameraManager) :
    createRequests buffers s =
      let made := Manager.createRequests (outcomes buffers)
      let t := { s with requests := s.requests ++ made.1 }
      if made.2 then .ok t else .error t := by
  induction buffers generalizing s with
  | nil => simp [createRequests, outcomes, Manager.createRequests]
  | cons b rest ih =>
      obtain ⟨buffer, o⟩ := b
      simp only [createRequests, outcomes_cons, Manager.createRequests, BufferCalls.outcome]
      by_cases hcreate : o.createRequest
      · by_cases hadd : o.addBuffer < 0
        · simp [hcreate, hadd, not_le.mpr hadd]
        · simp [hcreate, hadd, ih, not_lt.mp hadd]
      · simp [hcreate]

/-! ### The helpers before the allocator -/

/-- A call after a call that failed is not made. -/
lemma bind_eq_error {ε α β : Type} {x : Except ε α} {f : α → Except ε β} {e : ε} :
    x >>= f = .error e ↔ x = .error e ∨ ∃ a, x = .ok a ∧ f a = .error e := by
  cases x <;> simp [bind, Except.bind]

lemma bind_eq_ok {ε α β : Type} {x : Except ε α} {f : α → Except ε β} {b : β} :
    x >>= f = .ok b ↔ ∃ a, x = .ok a ∧ f a = .ok b := by
  cases x <;> simp [bind, Except.bind]

lemma mapError_eq_error {ε ε' α : Type*} {x : Except ε α} {f : ε → ε'} {e' : ε'} :
    x.mapError f = .error e' ↔ ∃ e, x = .error e ∧ f e = e' := by
  cases x <;> simp [Except.mapError]

lemma mapError_eq_ok {ε ε' α : Type*} {x : Except ε α} {f : ε → ε'} {a : α} :
    x.mapError f = .ok a ↔ x = .ok a := by
  cases x <;> simp [Except.mapError]

lemma initCameraManager_error (h : initCameraManager o s = .error t) :
    o.startManager ≠ 0 ∧ t = { s with camManager := .null } := by
  simp only [initCameraManager] at h
  split_ifs at h with hstart
  cases h
  exact ⟨hstart, rfl⟩

lemma initCameraManager_ok (h : initCameraManager o s = .ok t) :
    o.startManager = 0 ∧ t = { s with camManager := .started } := by
  simp only [initCameraManager] at h
  split_ifs at h with hstart
  cases h
  exact ⟨not_not.mp hstart, rfl⟩

lemma acquireCamera_error (hcamera : s.camera = none) (h : acquireCamera o s = .error t) :
    ¬ o.Acquired ∧ t = s := by
  have hreset : { s with camera := none } = s := by rw [← hcamera]
  rw [acquireCamera] at h
  split at h
  · cases h
    exact ⟨fun hacq => hacq.1 ‹_›, rfl⟩
  · split_ifs at h with hget hacquire
    · cases h
      exact ⟨fun hacq => by simp [hacq.2.1] at hget, hreset⟩
    · cases h
      exact ⟨fun hacq => hacquire hacq.2.2, hreset⟩

lemma acquireCamera_ok (h : acquireCamera o s = .ok t) :
    o.Acquired ∧ ∃ camera,
      t = { s with camera := some camera, acquired := camera :: s.acquired } := by
  rw [acquireCamera] at h
  split at h
  · cases h
  · rename_i camera _ hcameras
    split_ifs at h with hget hacquire
    cases h
    exact ⟨⟨by simp [hcameras], by simpa using hget, not_not.mp hacquire⟩, camera, rfl⟩

lemma configureStream_error (h : configureStream o s = .error t) :
    ¬ o.StreamConfigured ∧ t = s := by
  simp only [configureStream] at h
  split_ifs at h with hgenerate hvalidate hconfigure
  · cases h
    exact ⟨fun hconf => by simp [hconf.1] at hgenerate, rfl⟩
  · cases h
    exact ⟨fun hconf => hconf.2.1 hvalidate, rfl⟩
  · cases h
    exact ⟨fun hconf => hconfigure hconf.2.2, rfl⟩

lemma configureStream_ok (h : configureStream o s = .ok t) :
    o.StreamConfigured ∧ t = { s with stride := o.stride } := by
  simp only [configureStream] at h
  split_ifs at h with hgenerate hvalidate hconfigure
  cases h
  exact ⟨⟨by simpa using hgenerate, hvalidate, not_not.mp hconfigure⟩, rfl⟩

/-! ### The helpers after it -/

lemma mapBuffers_eq_none {buffers : List (FrameBuffer × BufferCalls)} :
    Manager.mapBuffers (outcomes buffers) = none ↔ ∃ b ∈ buffers, b.2.mmap = none := by
  induction buffers with
  | nil => simp [outcomes, Manager.mapBuffers]
  | cons b rest ih =>
      obtain ⟨buffer, o⟩ := b
      simp only [outcomes_cons, Manager.mapBuffers, BufferCalls.outcome, List.mem_cons,
        exists_eq_or_imp]
      cases o.mmap with
      | none => simp
      | some ptr => simpa using ih

/-- `create_requests` makes a request unless a call for the first buffer fails. -/
lemma createRequests_eq_nil {buffers : List (FrameBuffer × BufferCalls)} :
    (Manager.createRequests (outcomes buffers)).1 = [] ↔
      ¬ ∃ b ∈ buffers.head?, b.2.Makes := by
  cases buffers with
  | nil => simp [outcomes, Manager.createRequests]
  | cons b rest =>
      obtain ⟨buffer, o⟩ := b
      simp only [outcomes_cons, Manager.createRequests, BufferCalls.outcome, BufferCalls.Makes]
      split <;> simp_all

/-- When it returns true there is a request for each buffer. -/
lemma createRequests_all {buffers : List (FrameBuffer × BufferCalls)}
    (h : (Manager.createRequests (outcomes buffers)).2 = true) :
    (Manager.createRequests (outcomes buffers)).1.map (·.buffer) = buffers.map (·.1) := by
  induction buffers with
  | nil => simp [outcomes, Manager.createRequests]
  | cons b rest ih =>
      obtain ⟨buffer, o⟩ := b
      simp only [outcomes_cons, Manager.createRequests] at h ⊢
      split at h
      · rename_i hmakes
        simp only [hmakes, if_true, List.map_cons, List.cons.injEq, true_and]
        exact ih h
      · cases h

/-- The allocator of an `open` that starts with `n` buffers allocated. -/
def allocatorOf (o : OpenCalls) (n : ℕ) : List FrameBuffer :=
  (allocatorBuffers n o.buffers).map (·.1)

/-- The requests that `create_requests` makes before a call fails. -/
def requestsOf (o : OpenCalls) (n : ℕ) : List Request :=
  (Manager.createRequests (outcomes (allocatorBuffers n o.buffers))).1

lemma allocatorBuffers_snd (n : ℕ) (buffers : List BufferCalls) :
    (allocatorBuffers n buffers).map (·.2) = buffers := by
  simp [allocatorBuffers, Function.comp_def]

/-- Some `mmap` fails. -/
lemma mapBuffers_fails (n : ℕ) :
    Manager.mapBuffers (outcomes (allocatorBuffers n o.buffers)) = none ↔
      ∃ b ∈ o.buffers, b.mmap = none := by
  rw [mapBuffers_eq_none]
  conv_rhs => rw [← allocatorBuffers_snd n o.buffers]
  simp only [List.mem_map, exists_exists_and_eq_and]

/-- `allocate_and_map_buffers` unmaps what it has mapped, and keeps the allocator. -/
lemma allocateAndMapBuffers_error (hmapped : s.mapped = [])
    (h : allocateAndMapBuffers o s = .error t) :
    ¬ o.Mapped ∧ ∃ buffers, t = { s with
      allocator := some buffers
      allocated := if 0 ≤ o.allocate then s.allocated + o.buffers.length else s.allocated } := by
  simp only [allocateAndMapBuffers] at h
  split_ifs at h with halloc
  · cases h
    exact ⟨fun hmap => absurd hmap.1 (not_le.mpr halloc), [], by simp [halloc]⟩
  · rw [mapBuffers_eq] at h
    split at h
    · rename_i hnone
      cases h
      obtain ⟨b, hb, hmmap⟩ := (mapBuffers_fails _).mp hnone
      refine ⟨fun hmap => hmap.2 b hb hmmap, allocatorOf o s.allocated, ?_⟩
      simp [unmapBuffers, allocatorOf, not_lt.mp halloc, hmapped]
    · cases h

lemma allocateAndMapBuffers_ok (hmapped : s.mapped = [])
    (h : allocateAndMapBuffers o s = .ok t) :
    o.Mapped ∧ ∃ mapped,
      Manager.mapBuffers (outcomes (allocatorBuffers s.allocated o.buffers)) = some mapped ∧
      t = { s with
        allocator := some (allocatorOf o s.allocated)
        allocated := s.allocated + o.buffers.length
        mapped := mapped } := by
  simp only [allocateAndMapBuffers] at h
  split_ifs at h with halloc
  rw [mapBuffers_eq] at h
  split at h
  · cases h
  · rename_i mapped hsome
    cases h
    refine ⟨⟨not_lt.mp halloc, fun b hb hmmap => ?_⟩, mapped, hsome, by simp [hmapped, allocatorOf]⟩
    rw [(mapBuffers_fails _).mpr ⟨b, hb, hmmap⟩] at hsome
    cases hsome

/-! ### `open` -/

/-- How `open` fails, and what it leaves then. -/
inductive Failure (res : Resolution) (o : OpenCalls) (s : CameraManager) : CameraManager → Prop
  | manager : o.startManager ≠ 0 →
      Failure res o s { s with
        resolution := res
        camManager := .null }
  | camera : o.startManager = 0 → ¬ (o.Acquired ∧ o.StreamConfigured) →
      Failure res o s { s with
        resolution := res
        camManager := .stopped }
  | buffers (buffers : List FrameBuffer) : o.MakesAllocator → ¬ o.Mapped →
      Failure res o s { s with
        resolution := res
        camManager := .stopped
        stride := o.stride
        allocator := some buffers
        allocated := if 0 ≤ o.allocate then s.allocated + o.buffers.length else s.allocated }
  | requests : o.MakesAllocator → o.Mapped →
      (Manager.createRequests (outcomes (allocatorBuffers s.allocated o.buffers))).2 = false →
      Failure res o s { s with
        resolution := res
        camManager := .stopped
        stride := o.stride
        allocator := some (allocatorOf o s.allocated)
        allocated := s.allocated + o.buffers.length
        requests := s.requests ++ requestsOf o s.allocated }

/-- The step lemma for an `open` that returns false. -/
lemma openCamera_error (hs : s.Released) (h : s.openCamera res o = .error t) :
    Failure res o s t := by
  simp only [openCamera, bind_eq_error, mapError_eq_error, mapError_eq_ok] at h
  obtain h | ⟨s₁, h₁, h⟩ := h
  · obtain ⟨hstart, rfl⟩ := initCameraManager_error h
    exact .manager hstart
  obtain ⟨hstart, rfl⟩ := initCameraManager_ok h₁
  obtain ⟨e, h, rfl⟩ | ⟨s₂, h₂, h⟩ := h
  · obtain ⟨hacq, rfl⟩ := acquireCamera_error (by exact hs.camera) h
    exact .camera hstart fun hboth => hacq hboth.1
  obtain ⟨hacq, camera, rfl⟩ := acquireCamera_ok h₂
  have hundo : ∀ t : CameraManager, t.camera = some camera → t.acquired = camera :: s.acquired →
      t.releaseCamera.stopManager =
        { t with camera := s.camera, acquired := s.acquired, camManager := .stopped } := by
    intro t hcamera hacquired
    simp [releaseCamera, stopManager, hcamera, hacquired, hs.camera]
  obtain ⟨e, h, rfl⟩ | ⟨s₃, h₃, h⟩ := h
  · obtain ⟨hconf, rfl⟩ := configureStream_error h
    rw [hundo _ rfl rfl]
    exact .camera hstart fun hboth => hconf hboth.2
  obtain ⟨hconf, rfl⟩ := configureStream_ok h₃
  have hmakes : o.MakesAllocator := ⟨hstart, hacq, hconf⟩
  obtain ⟨e, h, rfl⟩ | ⟨s₄, h₄, h⟩ := h
  · obtain ⟨hmap, buffers, rfl⟩ := allocateAndMapBuffers_error (by exact hs.mapped) h
    rw [hundo _ rfl rfl]
    exact .buffers buffers hmakes hmap
  obtain ⟨hmap, mapped, hmapped, rfl⟩ := allocateAndMapBuffers_ok (by exact hs.mapped) h₄
  obtain ⟨e, h, rfl⟩ | ⟨s₅, h₅, h⟩ := h
  · rw [createRequests_eq] at h
    simp only at h
    split_ifs at h with hall
    cases h
    rw [hundo _ rfl rfl]
    have hfail : Failure res o s _ := .requests hmakes hmap (by simpa using hall)
    simpa [unmapBuffers, hs.mapped, requestsOf] using hfail
  · cases h

/-- The step lemma for an `open` that returns true. -/
lemma openCamera_ok (hs : s.Released) (h : s.openCamera res o = .ok t) :
    o.MakesAllocator ∧ o.Mapped ∧
      (Manager.createRequests (outcomes (allocatorBuffers s.allocated o.buffers))).2 = true ∧
      ∃ camera mapped,
        Manager.mapBuffers (outcomes (allocatorBuffers s.allocated o.buffers)) = some mapped ∧
        t = { camManager := .started
              camera := some camera
              allocator := some (allocatorOf o s.allocated)
              mapped := mapped
              requests := s.requests ++ requestsOf o s.allocated
              running := true
              resolution := res
              stride := o.stride
              acquired := [camera]
              queueCalls := s.requests ++ requestsOf o s.allocated
              allocated := s.allocated + o.buffers.length } := by
  simp only [openCamera, bind_eq_ok, mapError_eq_ok] at h
  obtain ⟨s₁, h₁, s₂, h₂, s₃, h₃, s₄, h₄, s₅, h₅, h⟩ := h
  obtain ⟨hstart, rfl⟩ := initCameraManager_ok h₁
  obtain ⟨hacq, camera, rfl⟩ := acquireCamera_ok h₂
  obtain ⟨hconf, rfl⟩ := configureStream_ok h₃
  obtain ⟨hmap, mapped, hmapped, rfl⟩ := allocateAndMapBuffers_ok (by exact hs.mapped) h₄
  rw [createRequests_eq] at h₅
  simp only at h₅
  split_ifs at h₅ with hall
  cases h₅
  cases h
  refine ⟨⟨hstart, hacq, hconf⟩, hmap, hall, camera, mapped, hmapped, ?_⟩
  simp [startStreaming, requestsOf, hs.acquired]

/-! ### From outside -/

/-- `m` is the manager, as the other threads see it. -/
structure Seen (s : CameraManager) (m : Manager) : Prop where
  running : m.running = s.running
  resolution : m.resolution = s.resolution
  stride : m.stride = s.stride
  mapped : m.mapped = s.mapped
  requests : m.requests = s.requests
  allocated : m.allocated = s.allocated

/-- `Manager` when `open` gets as far as the allocator. -/
lemma outcome_of_makesAllocator (h : o.MakesAllocator) :
    o.outcome.initCameraManager = true ∧ o.outcome.acquireCamera = true ∧
      o.outcome.configureStream = some o.stride := by
  obtain ⟨hstart, hacq, hconf⟩ := h
  simp [OpenCalls.outcome, hstart, hacq, hconf]

/-- `Manager` when it has mapped the buffers. -/
lemma openCamera_mapped {m : Manager} {mapped : List (FrameBuffer × MappedBuffer)}
    (hmakes : o.MakesAllocator) (hmap : o.Mapped)
    (hmapped : Manager.mapBuffers (outcomes (allocatorBuffers m.allocated o.buffers)) =
      some mapped) :
    m.openCamera res o.outcome =
      let made := Manager.createRequests (outcomes (allocatorBuffers m.allocated o.buffers))
      let m' := { m with
        resolution := res
        stride := o.stride
        allocated := m.allocated + o.buffers.length
        requests := m.requests ++ made.1 }
      if !made.2 then m'
      else { m' with
        mapped := mapped
        streaming := decide (o.startCamera = 0)
        main := .queueing m'.requests } := by
  obtain ⟨hinit, hacq, hconf⟩ := outcome_of_makesAllocator hmakes
  rw [outcomes_allocatorBuffers] at hmapped ⊢
  simp only [Manager.openCamera, hinit, hacq, hconf, Bool.not_true, Bool.or_self,
    Bool.false_eq_true, if_false]
  simp only [OpenCalls.outcome, hmap.1, decide_true, Bool.not_true, Bool.false_eq_true, if_false,
    hmapped, List.length_map]

/-- **An `open` that returns false**, from outside. -/
theorem openCamera_fails {m : Manager} (hs : s.Released) (hm : s.Seen m)
    (hmain : m.main = .closed) (h : s.openCamera res o = .error t) :
    t.Seen (m.openCamera res o.outcome) ∧ (m.openCamera res o.outcome).main = .closed := by
  obtain ⟨hrunning, -, hstride, hmapped, hrequests, hallocated⟩ := hm
  have hbuffers := outcomes_allocatorBuffers s.allocated o.buffers
  cases openCamera_error hs h with
  | manager hstart =>
      have hinit : o.outcome.initCameraManager = false := by simpa [OpenCalls.outcome] using hstart
      simp only [Manager.openCamera, hinit, Bool.not_false, Bool.true_or, if_true]
      exact ⟨⟨hrunning, rfl, hstride, hmapped, hrequests, hallocated⟩, hmain⟩
  | camera hstart hfail =>
      have hinit : o.outcome.initCameraManager = true := by simpa [OpenCalls.outcome] using hstart
      simp only [Manager.openCamera, hinit, Bool.not_true, Bool.false_or]
      by_cases hacq : o.Acquired
      · have hconf : o.outcome.configureStream = none :=
          if_neg fun hconf => hfail ⟨hacq, hconf⟩
        simp only [OpenCalls.outcome, hacq, decide_true, Bool.not_true, Bool.false_eq_true,
          if_false] at hconf ⊢
        rw [hconf]
        exact ⟨⟨hrunning, rfl, hstride, hmapped, hrequests, hallocated⟩, hmain⟩
      · have hacquire : o.outcome.acquireCamera = false := by simpa [OpenCalls.outcome] using hacq
        simp only [hacquire, Bool.not_false, if_true]
        exact ⟨⟨hrunning, rfl, hstride, hmapped, hrequests, hallocated⟩, hmain⟩
  | buffers buffers hmakes hfail =>
      obtain ⟨hinit, hacq, hconf⟩ := outcome_of_makesAllocator hmakes
      simp only [Manager.openCamera, hinit, hacq, hconf, Bool.not_true, Bool.or_self,
        Bool.false_eq_true, if_false]
      by_cases halloc : 0 ≤ o.allocate
      · have hnone : Manager.mapBuffers (outcomes (allocatorBuffers s.allocated o.buffers)) =
            none := by
          rw [mapBuffers_fails]
          by_contra! hall
          exact hfail ⟨halloc, hall⟩
        rw [hbuffers] at hnone
        simp only [OpenCalls.outcome, halloc, decide_true, Bool.not_true, Bool.false_eq_true,
          if_false, hallocated, hnone]
        exact ⟨⟨hrunning, rfl, rfl, hmapped, hrequests, by simp⟩, hmain⟩
      · simp only [OpenCalls.outcome, halloc, decide_false, Bool.not_false, if_true]
        exact ⟨⟨hrunning, rfl, rfl, hmapped, hrequests, hallocated⟩, hmain⟩
  | requests hmakes hmap hfail =>
      have hmaps : Manager.mapBuffers (outcomes (allocatorBuffers s.allocated o.buffers)) ≠
          none := by
        rw [ne_eq, mapBuffers_fails]
        exact fun ⟨b, hb, hnone⟩ => hmap.2 b hb hnone
      obtain ⟨mapped, hsome⟩ := Option.ne_none_iff_exists'.mp hmaps
      rw [← hallocated] at hsome hfail ⊢
      rw [openCamera_mapped hmakes hmap hsome]
      simp only [hfail, Bool.not_false, if_true]
      exact ⟨⟨hrunning, rfl, rfl, hmapped, by rw [hrequests]; rfl, rfl⟩, hmain⟩

/-- From the loop of `start_streaming` to the end of `open`. -/
lemma exec_queueing {m : Manager} {o : OpenOutcome} {todo : List Request}
    (hmain : m.main = .queueing todo) :
    capture.exec (fun _ _ => true) m (List.replicate (todo.length + 2) (.main res o)) =
      some { m with
        queued := if m.streaming then m.queued ++ todo else m.queued
        running := true
        main := .opened } := by
  induction todo generalizing m with
  | nil =>
      simp [List.replicate, exec, capture, Manager.step, Manager.mainStep, hmain]
  | cons r todo ih =>
      have hstep : capture.step m (.main res o) =
          some { m.queueRequest r with main := .queueing todo } := by
        simp [capture, Manager.step, Manager.mainStep, hmain]
      rw [List.length_cons, Nat.add_right_comm, List.replicate_succ, exec_cons hstep, ih rfl]
      by_cases hstreaming : m.streaming <;> simp [Manager.queueRequest, hstreaming]

/-- **An `open` that returns true**, from outside: the steps of the main thread from `closed` to
`opened`. -/
theorem openCamera_opens {m : Manager} (hs : s.Released) (hm : s.Seen m)
    (hmain : m.main = .closed) (h : s.openCamera res o = .ok t) :
    ∃ m', capture.exec (fun _ _ => true) m
        (List.replicate (t.requests.length + 3) (.main res o.outcome)) = some m' ∧
      t.Seen m' ∧ m'.main = .opened ∧
      m'.queued = m.queued ++ if o.startCamera = 0 then t.queueCalls else [] := by
  obtain ⟨hmakes, hmap, hall, camera, mapped, hsome, rfl⟩ := openCamera_ok hs h
  obtain ⟨-, -, -, -, hrequests, hallocated⟩ := hm
  have hstep : capture.step m (.main res o.outcome) = some (m.openCamera res o.outcome) := by
    simp [capture, Manager.step, Manager.mainStep, hmain]
  rw [← hallocated] at hall hsome ⊢
  rw [openCamera_mapped hmakes hmap hsome] at hstep
  simp only [hall, Bool.not_true, Bool.false_eq_true, if_false] at hstep
  have hrun := (exec_cons hstep (List.replicate _ (.main res o.outcome))).trans
    (exec_queueing rfl)
  rw [← List.replicate_succ, hrequests] at hrun
  refine ⟨_, hrun, ⟨rfl, rfl, rfl, rfl, rfl, rfl⟩, rfl, ?_⟩
  by_cases hstart : o.startCamera = 0
  · simp [hstart, requestsOf]
  · simp [hstart]

/-! ### Calls that fail, one after the other -/

/-- What an `open` that returned false leaves of the state before. -/
structure Leaves (s t : CameraManager) (makesAllocator makesRequest : Prop) : Prop where
  released : t.Released
  allocator : t.allocator = none ↔ s.allocator = none ∧ ¬ makesAllocator
  requests : ∃ made, t.requests = s.requests ++ made ∧ (made = [] ↔ ¬ makesRequest)

lemma requestsOf_eq_nil {n : ℕ} :
    requestsOf o n = [] ↔ ¬ ∃ b ∈ o.buffers.head?, b.Makes := by
  rw [requestsOf, createRequests_eq_nil]
  conv_rhs => rw [← allocatorBuffers_snd n o.buffers]
  simp only [List.head?_map, Option.mem_map, exists_exists_and_eq_and]

/-- One call. -/
lemma leaves_of_error (hs : s.Released) (h : s.openCamera res o = .error t) :
    Leaves s t o.MakesAllocator o.MakesRequest := by
  cases openCamera_error hs h with
  | manager hstart =>
      have hnot : ¬ o.MakesAllocator := fun hmakes => hstart hmakes.1
      refine ⟨⟨by simp, hs.camera, hs.acquired, hs.mapped, hs.running⟩, by simp [hnot], [], ?_⟩
      simpa using fun hmakes : o.MakesRequest => hnot hmakes.1
  | camera hstart hfail =>
      have hnot : ¬ o.MakesAllocator := fun hmakes => hfail hmakes.2
      refine ⟨⟨by simp, hs.camera, hs.acquired, hs.mapped, hs.running⟩, by simp [hnot], [], ?_⟩
      simpa using fun hmakes : o.MakesRequest => hnot hmakes.1
  | buffers buffers hmakes hfail =>
      refine ⟨⟨by simp, hs.camera, hs.acquired, hs.mapped, hs.running⟩, by simp [hmakes], [], ?_⟩
      simpa using fun hmakes : o.MakesRequest => hfail hmakes.2.1
  | requests hmakes hmap hfail =>
      refine ⟨⟨by simp, hs.camera, hs.acquired, hs.mapped, hs.running⟩, by simp [hmakes],
        requestsOf o s.allocated, rfl, ?_⟩
      rw [requestsOf_eq_nil, OpenCalls.MakesRequest]
      simp only [hmakes, hmap, true_and]

/-- The run lemma. -/
lemma leaves_of_failedOpens {os : List (Resolution × OpenCalls)} (hs : s.Released)
    (h : FailedOpens s os t) :
    Leaves s t (∃ o ∈ os, o.2.MakesAllocator) (∃ o ∈ os, o.2.MakesRequest) := by
  induction h with
  | nil s => exact ⟨hs, by simp, [], by simp, by simp⟩
  | cons h _ ih =>
      obtain ⟨hreleased, hallocator, made, hmade, hnil⟩ := leaves_of_error hs h
      obtain ⟨hreleased', hallocator', made', hmade', hnil'⟩ := ih hreleased
      refine ⟨hreleased', ?_, made ++ made', ?_, ?_⟩
      · rw [hallocator', hallocator]
        simp only [List.mem_cons, exists_eq_or_imp, not_or, and_assoc]
      · rw [hmade', hmade, List.append_assoc]
      · rw [List.append_eq_nil_iff, hnil, hnil']
        simp only [List.mem_cons, exists_eq_or_imp, not_or]

/-- The buffers of an allocator are different objects. -/
lemma allocatorOf_nodup (o : OpenCalls) (n : ℕ) : (allocatorOf o n).Nodup := by
  have hid : (allocatorOf o n).map (·.id) = List.range' n o.buffers.length := by
    simp only [allocatorOf, allocatorBuffers, List.map_map]
    exact List.zipIdx_map_snd n o.buffers
  exact .of_map (·.id) (hid ▸ List.nodup_range')

/-- After an `open` that returns true, the requests that were left over are the ones too many. -/
lemma oneRequestEach_iff (hs : s.Released) (h : s.openCamera res o = .ok t) :
    t.OneRequestEach ↔ s.requests = [] := by
  obtain ⟨-, -, hall, camera, mapped, -, rfl⟩ := openCamera_ok hs h
  have hmade : (requestsOf o s.allocated).map (·.buffer) = allocatorOf o s.allocated :=
    createRequests_all hall
  constructor
  · rintro ⟨buffers, halloc, -, hperm, -⟩
    obtain rfl : allocatorOf o s.allocated = buffers := Option.some.inj halloc
    have hlength := hperm.length_eq
    rw [List.map_append, hmade, List.length_append, List.length_map] at hlength
    exact List.length_eq_zero_iff.mp (by omega)
  · intro hnil
    have hperm : ((s.requests ++ requestsOf o s.allocated).map (·.buffer)).Perm
        (allocatorOf o s.allocated) := by rw [hnil, List.nil_append, hmade]
    exact ⟨_, rfl, allocatorOf_nodup o s.allocated, hperm, hperm⟩

/-- `close` puts away all of it, the allocator and the requests too. -/
theorem close_of_opened (hs : s.Released) (h : s.openCamera res o = .ok t) : t.close.Closed := by
  obtain ⟨-, -, -, camera, mapped, -, rfl⟩ := openCamera_ok hs h
  exact ⟨⟨by simp [close, stopManager], by simp [close, stopManager, releaseCamera, unmapBuffers],
    by simp [close, stopManager, releaseCamera, unmapBuffers], rfl, rfl⟩, rfl, rfl⟩

lemma closed_new : new.Closed := ⟨⟨by decide, rfl, rfl, rfl, rfl⟩, rfl, rfl⟩

/-- An `open` in which nothing fails but, maybe, the `addBuffer` of the second buffer. -/
def secondAddBuffer (ret : ℤ) : OpenCalls where
  startManager := 0
  cameras := ["/base/soc/i2c0mux/i2c@1/ov5647@36"]
  get := true
  acquire := 0
  generateConfiguration := true
  validate := .valid
  configure := 0
  stride := 1280
  allocate := 2
  buffers := [⟨7, [8, 4], some 4096, true, 0⟩, ⟨8, [8, 4], some 8192, true, ret⟩]
  startCamera := 0

end CameraManager

open CameraManager

/-- **What failed `open` calls leave**: the object is closed after them if and only if none of them
made the allocator; and an `open` that returns true then has one request for each buffer, which
`start_streaming` queues once, if and only if none of them made a request. -/
theorem closed_after_failed_opens_iff {s t : CameraManager} {os : List (Resolution × OpenCalls)}
    (hs : s.Closed) (h : FailedOpens s os t) :
    (t.Closed ↔ ∀ o ∈ os, ¬ o.2.MakesAllocator) ∧
      ∀ res o u, t.openCamera res o = .ok u →
        (u.OneRequestEach ↔ ∀ o ∈ os, ¬ o.2.MakesRequest) := by
  obtain ⟨hreleased, hallocator, made, hmade, hnil⟩ := leaves_of_failedOpens hs.toReleased h
  rw [hs.requests, List.nil_append] at hmade
  have hrequests : t.requests = [] ↔ ∀ o ∈ os, ¬ o.2.MakesRequest := by
    rw [hmade, hnil]
    simp only [not_exists, not_and]
  have halloc : t.allocator = none ↔ ∀ o ∈ os, ¬ o.2.MakesAllocator := by
    rw [hallocator, hs.allocator]
    simp only [true_and, not_exists, not_and]
  refine ⟨⟨fun hclosed => halloc.mp hclosed.allocator, fun hnone => ?_⟩, fun res o u hopen => ?_⟩
  · exact ⟨hreleased, halloc.mpr hnone, hrequests.mpr fun o ho hmakes => hnone o ho hmakes.1⟩
  · rw [oneRequestEach_iff hreleased hopen, hrequests]

/-- An `open` fails before the allocator is made, and the next one has one request each. -/
theorem no_camera_closed :
    ∃ t u, FailedOpens .new [(.medium, { secondAddBuffer 0 with cameras := [] })] t ∧ t.Closed ∧
      t.openCamera .medium (secondAddBuffer 0) = .ok u ∧ u.OneRequestEach := by
  have hfails : FailedOpens .new [(.medium, { secondAddBuffer 0 with cameras := [] })]
      { CameraManager.new with camManager := .stopped } := .cons rfl (.nil _)
  have hmakes : ∀ o ∈ [(Resolution.medium, { secondAddBuffer 0 with cameras := [] })],
      ¬ o.2.MakesAllocator := by
    intro o ho hmakes
    obtain rfl := List.mem_singleton.mp ho
    exact hmakes.2.1.1 rfl
  obtain ⟨hclosed, hopen⟩ := closed_after_failed_opens_iff closed_new hfails
  exact ⟨_, _, hfails, hclosed.mpr hmakes, rfl,
    (hopen .medium (secondAddBuffer 0) _ rfl).mpr fun o ho hrequest => hmakes o ho hrequest.1⟩

/-- The `addBuffer` of the second buffer fails: the allocator stays, and so does the first request,
which the next `open` queues with the requests for its own two buffers. -/
theorem second_addBuffer_leaves_request :
    (¬ ∀ s t os, s.Closed → FailedOpens s os t → t.Closed) ∧
      ¬ ∀ s t os, s.Closed → FailedOpens s os t →
        ∀ res o u, t.openCamera res o = .ok u → u.OneRequestEach := by
  have hfails : FailedOpens .new [(.medium, secondAddBuffer (-22))] _ := .cons rfl (.nil _)
  constructor
  · intro h
    cases (h .new _ _ closed_new hfails).allocator
  · intro h
    obtain ⟨buffers, halloc, -, hperm, -⟩ :=
      h .new _ _ closed_new hfails .medium (secondAddBuffer 0) _ rfl
    obtain rfl := Option.some.inj halloc
    -- three requests, two buffers
    cases hperm.length_eq

end RasPiZeroCam
