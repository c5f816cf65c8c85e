import Layer4Lb.Traffic.Limiter
import Layer4Lb.Lib.Intern
import Layer4Lb.Net.Addr

/-!
# Bandwidth limiters per client and per backend

`BandwidthManager` of `traffic/limiter.rs`, and the part of `main`'s
per-connection setup that asks it for the limiters of `ProxyConfig`.  The
manager keeps four maps from keys to limiters shared through `Arc`.  Here a
limiter is its address in the list of the limiters the manager has created, and
two connections share a limiter when they get the same address.
`get_or_create_limiter` interns its key: it is `Intern.getOrInsert` on the map,
with the store of limiters growing by one when the key is new.

`main` keys the backend limiters by the client's IP as text,
`client_addr.ip().to_string()`, not by the backend's address.  So two
connections share their backend limiters exactly when their clients' IPs print
the same, whatever backend they go to.
-/

namespace Layer4Lb

/-- `BandwidthManager` over the type `Ip` of client IPs: the configuration, the
four maps from keys to the addresses of their limiters, and the limiters
created so far, as they were created. -/
structure BandwidthManager (Ip : Type) where
  config : BandwidthLimitConfig
  clientUpload : Ip → Option Nat
  clientDownload : Ip → Option Nat
  backendUpload : String → Option Nat
  backendDownload : String → Option Nat
  limiters : List SimpleLimiter

namespace BandwidthManager

variable {Ip : Type}

/-- `BandwidthManager::new`: four empty maps. -/
def new (config : BandwidthLimitConfig) : BandwidthManager Ip :=
  ⟨config, fun _ => none, fun _ => none, fun _ => none, fun _ => none, []⟩

/-- `get_or_create_limiter` on the map `map`, at clock reading `now`: the
address of the limiter for `key`, the map after, and the limiters after.  A new
limiter has a burst of 65536 and a rate of at least 1024. -/
def getOrCreateLimiter {K : Type} [DecidableEq K] (map : K → Option Nat)
    (limiters : List SimpleLimiter) (key : K) (ratePerSec : UInt32) (now : ℚ) :
    Nat × (K → Option Nat) × List SimpleLimiter :=
  match map key with
  | some i => (i, map, limiters)
  | none =>
    let burst := 65536
    (limiters.length, Function.update map key (some limiters.length),
      limiters ++ [SimpleLimiter.new (max ratePerSec 1024) burst now])

/-- The body of the four `get_*_limiter`s: nothing when bandwidth limiting is
off or the section `limits` is missing, else the limiter for `key` at the rate
`rate` of the section. -/
def getLimiter {K : Type} [DecidableEq K] (enabled : Bool) (limits : Option BandwidthConfig)
    (rate : BandwidthConfig → UInt32) (map : K → Option Nat) (limiters : List SimpleLimiter)
    (key : K) (now : ℚ) : Option (Nat × (K → Option Nat) × List SimpleLimiter) :=
  if !enabled then none
  else limits.map fun l => getOrCreateLimiter map limiters key (rate l) now

/-- `get_backend_upload_limiter`. -/
def getBackendUploadLimiter (m : BandwidthManager Ip) (key : String) (now : ℚ) :
    Option Nat × BandwidthManager Ip :=
  match getLimiter m.config.enabled m.config.backend BandwidthConfig.uploadPerSec
      m.backendUpload m.limiters key now with
  | none => (none, m)
  | some r => (some r.1, { m with backendUpload := r.2.1, limiters := r.2.2 })

/-- `get_backend_download_limiter`. -/
def getBackendDownloadLimiter (m : BandwidthManager Ip) (key : String) (now : ℚ) :
    Option Nat × BandwidthManager Ip :=
  match getLimiter m.config.enabled m.config.backend BandwidthConfig.downloadPerSec
      m.backendDownload m.limiters key now with
  | none => (none, m)
  | some r => (some r.1, { m with backendDownload := r.2.1, limiters := r.2.2 })

section Client

variable [DecidableEq Ip]

/-- `get_client_upload_limiter`. -/
def getClientUploadLimiter (m : BandwidthManager Ip) (ip : Ip) (now : ℚ) :
    Option Nat × BandwidthManager Ip :=
  match getLimiter m.config.enabled m.config.client BandwidthConfig.uploadPerSec m.clientUpload
      m.limiters ip now with
  | none => (none, m)
  | some r => (some r.1, { m with clientUpload := r.2.1, limiters := r.2.2 })

/-- `get_client_download_limiter`. -/
def getClientDownloadLimiter (m : BandwidthManager Ip) (ip : Ip) (now : ℚ) :
    Option Nat × BandwidthManager Ip :=
  match getLimiter m.config.enabled m.config.client BandwidthConfig.downloadPerSec
      m.clientDownload m.limiters ip now with
  | none => (none, m)
  | some r => (some r.1, { m with clientDownload := r.2.1, limiters := r.2.2 })

/-- The limiters of `ProxyConfig`; its other fields are left out. -/
structure ProxyLimiters where
  clientReadLimiter : Option Nat
  clientWriteLimiter : Option Nat
  backendReadLimiter : Option Nat
  backendWriteLimiter : Option Nat
  deriving DecidableEq, Repr

/-- `main`'s setup of the limiters of one proxied connection from `clientIp`, in
the order of the fields of `ProxyConfig`.  The backend limiters are asked for
with the client's IP as text as the key. -/
def connectionLimiters [ToString Ip] (m : BandwidthManager Ip) (clientIp : Ip) (now : ℚ) :
    ProxyLimiters × BandwidthManager Ip :=
  let r₁ := m.getClientUploadLimiter clientIp now
  let r₂ := r₁.2.getClientDownloadLimiter clientIp now
  let r₃ := r₂.2.getBackendDownloadLimiter (toString clientIp) now
  let r₄ := r₃.2.getBackendUploadLimiter (toString clientIp) now
  (⟨r₁.1, r₂.1, r₃.1, r₄.1⟩, r₄.2)

end Client

/-! ## Interning -/

section Intern

variable {K : Type} [DecidableEq K] (map : K → Option Nat) (limiters : List SimpleLimiter)
  (key : K) (ratePerSec : UInt32) (now : ℚ)

/-- `get_or_create_limiter` returns the address `Intern.getOrInsert` returns in
the store of the limiters created so far. -/
theorem getOrCreateLimiter_fst :
    (getOrCreateLimiter map limiters key ratePerSec now).1 =
      (Intern.getOrInsert map limiters.length key).1 := by
  unfold getOrCreateLimiter Intern.getOrInsert
  cases map key <;> rfl

/-- `get_or_create_limiter` leaves the map `Intern.getOrInsert` leaves. -/
theorem getOrCreateLimiter_map :
    (getOrCreateLimiter map limiters key ratePerSec now).2.1 =
      (Intern.getOrInsert map limiters.length key).2 := by
  unfold getOrCreateLimiter Intern.getOrInsert
  cases map key <;> rfl

/-- `get_or_create_limiter` creates a limiter exactly when the key is new. -/
theorem getOrCreateLimiter_length :
    (getOrCreateLimiter map limiters key ratePerSec now).2.2.length =
      Intern.nextAfter map limiters.length key := by
  unfold getOrCreateLimiter Intern.nextAfter
  cases map key with
  | some i => rfl
  | none => exact List.length_append

theorem getLimiter_of_enabled {enabled : Bool} {limits : Option BandwidthConfig}
    {l : BandwidthConfig} (rate : BandwidthConfig → UInt32) (hen : enabled = true)
    (hl : limits = some l) :
    getLimiter enabled limits rate map limiters key now =
      some (getOrCreateLimiter map limiters key (rate l) now) := by
  simp [getLimiter, hen, hl]

/-- The limiters only grow. -/
theorem getLimiter_length {enabled : Bool} {limits : Option BandwidthConfig}
    {rate : BandwidthConfig → UInt32} {r : Nat × (K → Option Nat) × List SimpleLimiter}
    (h : getLimiter enabled limits rate map limiters key now = some r) :
    limiters.length ≤ r.2.2.length := by
  unfold getLimiter at h
  split at h
  · cases h
  · obtain ⟨l, -, rfl⟩ := Option.map_eq_some_iff.1 h
    rw [getOrCreateLimiter_length]
    exact Intern.le_nextAfter key

end Intern

/-! ## What each getter changes -/

section BackendGetters

variable (m : BandwidthManager Ip) (key : String) (now : ℚ)

@[simp] theorem getBackendUploadLimiter_config :
    (m.getBackendUploadLimiter key now).2.config = m.config := by
  unfold getBackendUploadLimiter; split <;> rfl

@[simp] theorem getBackendDownloadLimiter_config :
    (m.getBackendDownloadLimiter key now).2.config = m.config := by
  unfold getBackendDownloadLimiter; split <;> rfl

@[simp] theorem getBackendDownloadLimiter_backendUpload :
    (m.getBackendDownloadLimiter key now).2.backendUpload = m.backendUpload := by
  unfold getBackendDownloadLimiter; split <;> rfl

@[simp] theorem getBackendUploadLimiter_backendDownload :
    (m.getBackendUploadLimiter key now).2.backendDownload = m.backendDownload := by
  unfold getBackendUploadLimiter; split <;> rfl

theorem length_le_getBackendDownloadLimiter :
    m.limiters.length ≤ (m.getBackendDownloadLimiter key now).2.limiters.length := by
  unfold getBackendDownloadLimiter
  split
  · exact Nat.le_refl _
  · rename_i r h
    exact getLimiter_length _ _ _ _ h

theorem length_le_getBackendUploadLimiter :
    m.limiters.length ≤ (m.getBackendUploadLimiter key now).2.limiters.length := by
  unfold getBackendUploadLimiter
  split
  · exact Nat.le_refl _
  · rename_i r h
    exact getLimiter_length _ _ _ _ h

variable {m} {b : BandwidthConfig}

/-- With bandwidth limiting on and a backend section, `get_backend_upload_limiter`
interns its key among the limiters created so far. -/
theorem getBackendUploadLimiter_of_enabled (hen : m.config.enabled = true)
    (hb : m.config.backend = some b) :
    (m.getBackendUploadLimiter key now).1 =
        some (Intern.getOrInsert m.backendUpload m.limiters.length key).1 ∧
      (m.getBackendUploadLimiter key now).2.backendUpload =
        (Intern.getOrInsert m.backendUpload m.limiters.length key).2 ∧
      (m.getBackendUploadLimiter key now).2.limiters.length =
        Intern.nextAfter m.backendUpload m.limiters.length key := by
  unfold getBackendUploadLimiter
  rw [getLimiter_of_enabled _ _ _ _ _ hen hb]
  exact ⟨congrArg some (getOrCreateLimiter_fst _ _ _ _ _), getOrCreateLimiter_map _ _ _ _ _,
    getOrCreateLimiter_length _ _ _ _ _⟩

/-- With bandwidth limiting on and a backend section,
`get_backend_download_limiter` interns its key among the limiters created so far. -/
theorem getBackendDownloadLimiter_of_enabled (hen : m.config.enabled = true)
    (hb : m.config.backend = some b) :
    (m.getBackendDownloadLimiter key now).1 =
        some (Intern.getOrInsert m.backendDownload m.limiters.length key).1 ∧
      (m.getBackendDownloadLimiter key now).2.backendDownload =
        (Intern.getOrInsert m.backendDownload m.limiters.length key).2 ∧
      (m.getBackendDownloadLimiter key now).2.limiters.length =
        Intern.nextAfter m.backendDownload m.limiters.length key := by
  unfold getBackendDownloadLimiter
  rw [getLimiter_of_enabled _ _ _ _ _ hen hb]
  exact ⟨congrArg some (getOrCreateLimiter_fst _ _ _ _ _), getOrCreateLimiter_map _ _ _ _ _,
    getOrCreateLimiter_length _ _ _ _ _⟩

end BackendGetters

section ClientGetters

variable [DecidableEq Ip] (m : BandwidthManager Ip) (ip : Ip) (now : ℚ)

@[simp] theorem getClientUploadLimiter_config :
    (m.getClientUploadLimiter ip now).2.config = m.config := by
  unfold getClientUploadLimiter; split <;> rfl

@[simp] theorem getClientDownloadLimiter_config :
    (m.getClientDownloadLimiter ip now).2.config = m.config := by
  unfold getClientDownloadLimiter; split <;> rfl

@[simp] theorem getClientUploadLimiter_backendUpload :
    (m.getClientUploadLimiter ip now).2.backendUpload = m.backendUpload := by
  unfold getClientUploadLimiter; split <;> rfl

@[simp] theorem getClientUploadLimiter_backendDownload :
    (m.getClientUploadLimiter ip now).2.backendDownload = m.backendDownload := by
  unfold getClientUploadLimiter; split <;> rfl

@[simp] theorem getClientDownloadLimiter_backendUpload :
    (m.getClientDownloadLimiter ip now).2.backendUpload = m.backendUpload := by
  unfold getClientDownloadLimiter; split <;> rfl

@[simp] theorem getClientDownloadLimiter_backendDownload :
    (m.getClientDownloadLimiter ip now).2.backendDownload = m.backendDownload := by
  unfold getClientDownloadLimiter; split <;> rfl

theorem length_le_getClientUploadLimiter :
    m.limiters.length ≤ (m.getClientUploadLimiter ip now).2.limiters.length := by
  unfold getClientUploadLimiter
  split
  · exact Nat.le_refl _
  · rename_i r h
    exact getLimiter_length _ _ _ _ h

theorem length_le_getClientDownloadLimiter :
    m.limiters.length ≤ (m.getClientDownloadLimiter ip now).2.limiters.length := by
  unfold getClientDownloadLimiter
  split
  · exact Nat.le_refl _
  · rename_i r h
    exact getLimiter_length _ _ _ _ h

end ClientGetters

/-! ## Which connections share backend limiters -/

/-- The backend maps bind keys to distinct limiters the manager has created. -/
structure BackendValid (m : BandwidthManager Ip) : Prop where
  upload : Intern.Valid m.backendUpload m.limiters.length
  download : Intern.Valid m.backendDownload m.limiters.length

theorem backendValid_new (config : BandwidthLimitConfig) :
    (new config : BandwidthManager Ip).BackendValid :=
  ⟨Intern.valid_empty 0, Intern.valid_empty 0⟩

section Connection

variable [DecidableEq Ip] [ToString Ip] {m : BandwidthManager Ip} {b : BandwidthConfig}

@[simp] theorem connectionLimiters_config (ip : Ip) (now : ℚ) :
    (m.connectionLimiters ip now).2.config = m.config := by
  simp [connectionLimiters]

/-- How a connection's setup uses the backend upload map: it interns the client's
IP as text, at a store of at least the limiters there were. -/
theorem connectionLimiters_backendWrite (hen : m.config.enabled = true)
    (hb : m.config.backend = some b) (ip : Ip) (now : ℚ) :
    ∃ n, m.limiters.length ≤ n ∧
      (m.connectionLimiters ip now).1.backendWriteLimiter =
        some (Intern.getOrInsert m.backendUpload n (toString ip)).1 ∧
      (m.connectionLimiters ip now).2.backendUpload =
        (Intern.getOrInsert m.backendUpload n (toString ip)).2 ∧
      Intern.nextAfter m.backendUpload n (toString ip) ≤
        (m.connectionLimiters ip now).2.limiters.length := by
  -- the three getters before it leave the upload map alone and grow the store
  let m₁ := (m.getClientUploadLimiter ip now).2
  let m₂ := (m₁.getClientDownloadLimiter ip now).2
  let m₃ := (m₂.getBackendDownloadLimiter (toString ip) now).2
  have hen₃ : m₃.config.enabled = true := by simpa [m₃, m₂, m₁] using hen
  have hb₃ : m₃.config.backend = some b := by simpa [m₃, m₂, m₁] using hb
  have hmap : m₃.backendUpload = m.backendUpload := by simp [m₃, m₂, m₁]
  have hlen : m.limiters.length ≤ m₃.limiters.length :=
    Nat.le_trans (length_le_getClientUploadLimiter m ip now)
      (Nat.le_trans (length_le_getClientDownloadLimiter m₁ ip now)
        (length_le_getBackendDownloadLimiter m₂ _ now))
  obtain ⟨h₁, h₂, h₃⟩ := getBackendUploadLimiter_of_enabled (m := m₃) (toString ip) now hen₃ hb₃
  rw [hmap] at h₁ h₂ h₃
  exact ⟨m₃.limiters.length, hlen, h₁, h₂, Nat.le_of_eq h₃.symm⟩

/-- How a connection's setup uses the backend download map: it interns the
client's IP as text, at a store of at least the limiters there were. -/
theorem connectionLimiters_backendRead (hen : m.config.enabled = true)
    (hb : m.config.backend = some b) (ip : Ip) (now : ℚ) :
    ∃ n, m.limiters.length ≤ n ∧
      (m.connectionLimiters ip now).1.backendReadLimiter =
        some (Intern.getOrInsert m.backendDownload n (toString ip)).1 ∧
      (m.connectionLimiters ip now).2.backendDownload =
        (Intern.getOrInsert m.backendDownload n (toString ip)).2 ∧
      Intern.nextAfter m.backendDownload n (toString ip) ≤
        (m.connectionLimiters ip now).2.limiters.length := by
  -- the two client getters before it leave the download map alone, the upload
  -- getter after it too
  let m₁ := (m.getClientUploadLimiter ip now).2
  let m₂ := (m₁.getClientDownloadLimiter ip now).2
  let m₃ := (m₂.getBackendDownloadLimiter (toString ip) now).2
  have hen₂ : m₂.config.enabled = true := by simpa [m₂, m₁] using hen
  have hb₂ : m₂.config.backend = some b := by simpa [m₂, m₁] using hb
  have hmap : m₂.backendDownload = m.backendDownload := by simp [m₂, m₁]
  have hlen : m.limiters.length ≤ m₂.limiters.length :=
    Nat.le_trans (length_le_getClientUploadLimiter m ip now)
      (length_le_getClientDownloadLimiter m₁ ip now)
  obtain ⟨h₁, h₂, h₃⟩ := getBackendDownloadLimiter_of_enabled (m := m₂) (toString ip) now hen₂ hb₂
  rw [hmap] at h₁ h₂ h₃
  refine ⟨m₂.limiters.length, hlen, h₁, ?_, ?_⟩
  · exact (getBackendUploadLimiter_backendDownload m₃ _ now).trans h₂
  · rw [← h₃]
    exact length_le_getBackendUploadLimiter m₃ _ now

variable (hen : m.config.enabled = true) (hb : m.config.backend = some b) (ip : Ip) (now : ℚ)
include hen hb

/-- A connection's setup keeps the backend maps valid. -/
theorem BackendValid.connectionLimiters (hv : m.BackendValid) :
    (m.connectionLimiters ip now).2.BackendValid := by
  obtain ⟨n, hn, -, hup, hlen⟩ := connectionLimiters_backendWrite hen hb ip now
  obtain ⟨n', hn', -, hdown, hlen'⟩ := connectionLimiters_backendRead hen hb ip now
  constructor
  · rw [hup]
    exact ((hv.upload.mono hn).getOrInsert _).mono hlen
  · rw [hdown]
    exact ((hv.download.mono hn').getOrInsert _).mono hlen'

/-- A connection's setup keeps every binding of the backend upload map. -/
theorem connectionLimiters_upload_stable {k : String} {i : Nat} (h : m.backendUpload k = some i) :
    (m.connectionLimiters ip now).2.backendUpload k = some i := by
  obtain ⟨n, -, -, hup, -⟩ := connectionLimiters_backendWrite hen hb ip now
  rw [hup]
  exact Intern.getOrInsert_stable _ _ h

/-- A connection's setup keeps every binding of the backend download map. -/
theorem connectionLimiters_download_stable {k : String} {i : Nat}
    (h : m.backendDownload k = some i) :
    (m.connectionLimiters ip now).2.backendDownload k = some i := by
  obtain ⟨n, -, -, hdown, -⟩ := connectionLimiters_backendRead hen hb ip now
  rw [hdown]
  exact Intern.getOrInsert_stable _ _ h

/-- A connection gets the backend limiters the maps bind its client's IP to
after its setup. -/
theorem connectionLimiters_bound :
    (m.connectionLimiters ip now).1.backendWriteLimiter =
        (m.connectionLimiters ip now).2.backendUpload (toString ip) ∧
      (m.connectionLimiters ip now).1.backendReadLimiter =
        (m.connectionLimiters ip now).2.backendDownload (toString ip) := by
  obtain ⟨n, -, hw, hup, -⟩ := connectionLimiters_backendWrite hen hb ip now
  obtain ⟨n', -, hr, hdown, -⟩ := connectionLimiters_backendRead hen hb ip now
  rw [hw, hup, hr, hdown]
  exact ⟨(Intern.getOrInsert_bound _ _ _).symm, (Intern.getOrInsert_bound _ _ _).symm⟩

/-- A connection gets backend limiters. -/
theorem connectionLimiters_isSome :
    (m.connectionLimiters ip now).1.backendWriteLimiter.isSome ∧
      (m.connectionLimiters ip now).1.backendReadLimiter.isSome := by
  obtain ⟨n, -, hw, -, -⟩ := connectionLimiters_backendWrite hen hb ip now
  obtain ⟨n', -, hr, -, -⟩ := connectionLimiters_backendRead hen hb ip now
  rw [hw, hr]
  exact ⟨rfl, rfl⟩

end Connection

section Run

variable [DecidableEq Ip] [ToString Ip]

/-- `main`'s setups of a run of connections, each `(client IP, clock reading)`,
in order: the limiters of each, and the manager after. -/
def runSetups (m : BandwidthManager Ip) : List (Ip × ℚ) → List ProxyLimiters × BandwidthManager Ip
  | [] => ([], m)
  | c :: cs =>
    let r := m.connectionLimiters c.1 c.2
    let rest := runSetups r.2 cs
    (r.1 :: rest.1, rest.2)

@[simp] theorem runSetups_config (m : BandwidthManager Ip) (cs : List (Ip × ℚ)) :
    (m.runSetups cs).2.config = m.config := by
  induction cs generalizing m with
  | nil => rfl
  | cons c cs ih => rw [runSetups, ih, connectionLimiters_config]

variable {b : BandwidthConfig}

/-- A run keeps every binding of the backend maps. -/
theorem runSetups_stable {m : BandwidthManager Ip} (hen : m.config.enabled = true)
    (hb : m.config.backend = some b) (cs : List (Ip × ℚ)) {k : String} {i j : Nat}
    (hu : m.backendUpload k = some i) (hd : m.backendDownload k = some j) :
    (m.runSetups cs).2.backendUpload k = some i ∧ (m.runSetups cs).2.backendDownload k = some j := by
  induction cs generalizing m with
  | nil => exact ⟨hu, hd⟩
  | cons c cs ih =>
    rw [runSetups]
    exact ih (by rw [connectionLimiters_config]; exact hen) (by rw [connectionLimiters_config]; exact hb)
      (connectionLimiters_upload_stable hen hb c.1 c.2 hu)
      (connectionLimiters_download_stable hen hb c.1 c.2 hd)

theorem BackendValid.runSetups {m : BandwidthManager Ip} (hen : m.config.enabled = true)
    (hb : m.config.backend = some b) (hv : m.BackendValid) (cs : List (Ip × ℚ)) :
    (m.runSetups cs).2.BackendValid := by
  induction cs generalizing m with
  | nil => exact hv
  | cons c cs ih =>
    rw [BandwidthManager.runSetups]
    exact ih (by rw [connectionLimiters_config]; exact hen) (by rw [connectionLimiters_config]; exact hb)
      (hv.connectionLimiters hen hb c.1 c.2)

/-- Every connection of a run gets the backend limiters the maps bind its
client's IP to at the end of the run.  By induction on the run: a connection's
own setup binds them (`connectionLimiters_bound`), and the rest of the run keeps
the bindings (`runSetups_stable`). -/
theorem runSetups_bound {m : BandwidthManager Ip} (hen : m.config.enabled = true)
    (hb : m.config.backend = some b) {cs : List (Ip × ℚ)} {c : Ip × ℚ} {p : ProxyLimiters}
    (h : (c, p) ∈ cs.zip (m.runSetups cs).1) :
    p.backendWriteLimiter.isSome ∧
      p.backendWriteLimiter = (m.runSetups cs).2.backendUpload (toString c.1) ∧
      p.backendReadLimiter.isSome ∧
      p.backendReadLimiter = (m.runSetups cs).2.backendDownload (toString c.1) := by
  induction cs generalizing m with
  | nil => cases h
  | cons c' cs ih =>
    have hen' : (m.connectionLimiters c'.1 c'.2).2.config.enabled = true := by
      rw [connectionLimiters_config]; exact hen
    have hb' : (m.connectionLimiters c'.1 c'.2).2.config.backend = some b := by
      rw [connectionLimiters_config]; exact hb
    rw [runSetups, List.zip_cons_cons, List.mem_cons] at h
    rcases h with h | h
    · -- the first connection: bound by its setup, kept by the rest of the run
      obtain ⟨rfl, rfl⟩ := Prod.mk.inj h
      obtain ⟨hw, hr⟩ := connectionLimiters_bound hen hb c.1 c.2
      obtain ⟨hws, hrs⟩ := connectionLimiters_isSome hen hb c.1 c.2
      obtain ⟨i, hi⟩ := Option.isSome_iff_exists.1 hws
      obtain ⟨j, hj⟩ := Option.isSome_iff_exists.1 hrs
      have hkeep := runSetups_stable hen' hb' cs (hw ▸ hi) (hr ▸ hj)
      rw [runSetups]
      exact ⟨hws, hi.trans hkeep.1.symm, hrs, hj.trans hkeep.2.symm⟩
    · rw [runSetups]
      exact ih hen' hb' h

/-- Over any run of connection setups, with bandwidth limiting on and a backend
section, two connections get the same backend upload limiter, and the same
backend download limiter, exactly when their clients' IPs print the same:
whatever backends they go to. -/
theorem runSetups_backend_eq_iff {m : BandwidthManager Ip} (hen : m.config.enabled = true)
    (hb : m.config.backend = some b) (hv : m.BackendValid) {cs : List (Ip × ℚ)}
    {c₁ c₂ : Ip × ℚ} {p₁ p₂ : ProxyLimiters} (h₁ : (c₁, p₁) ∈ cs.zip (m.runSetups cs).1)
    (h₂ : (c₂, p₂) ∈ cs.zip (m.runSetups cs).1) :
    (p₁.backendWriteLimiter = p₂.backendWriteLimiter ↔ toString c₁.1 = toString c₂.1) ∧
      (p₁.backendReadLimiter = p₂.backendReadLimiter ↔ toString c₁.1 = toString c₂.1) := by
  have hv' := hv.runSetups hen hb cs
  obtain ⟨hw₁s, hw₁, hr₁s, hr₁⟩ := runSetups_bound hen hb h₁
  obtain ⟨hw₂s, hw₂, hr₂s, hr₂⟩ := runSetups_bound hen hb h₂
  obtain ⟨i, hi⟩ := Option.isSome_iff_exists.1 hw₁s
  obtain ⟨j, hj⟩ := Option.isSome_iff_exists.1 hr₁s
  constructor
  · constructor
    · -- one upload limiter bound to both texts: the map is injective
      intro heq
      exact hv'.upload.inj _ _ i (hw₁ ▸ hi) (hw₂ ▸ heq ▸ hi)
    · intro heq
      rw [hw₁, hw₂, heq]
  · constructor
    · intro heq
      exact hv'.download.inj _ _ j (hr₁ ▸ hj) (hr₂ ▸ heq ▸ hj)
    · intro heq
      rw [hr₁, hr₂, heq]

/-- Bandwidth limiting with a backend section of 1024 bytes a second each way,
and no client section. -/
def backendOnly : BandwidthLimitConfig := ⟨true, none, some ⟨1024, 1024⟩⟩

/-- Connections from client `7` at time `0`, client `8` at time `1` and client `7`
again at time `2`. -/
def threeSetups : List (ℕ × ℚ) := [(7, 0), (8, 1), (7, 2)]

/-- The two connections from client `7` get the same backend limiters, download
`0` and upload `1`; the one from client `8` gets others, `2` and `3`. -/
theorem runSetups_backend_eq_iff_two_clients :
    (new backendOnly : BandwidthManager ℕ).config.enabled = true ∧
      (new backendOnly : BandwidthManager ℕ).config.backend = some ⟨1024, 1024⟩ ∧
      (new backendOnly : BandwidthManager ℕ).BackendValid ∧
      (((7 : ℕ), (0 : ℚ)), (⟨none, none, some 0, some 1⟩ : ProxyLimiters)) ∈
        threeSetups.zip ((new backendOnly : BandwidthManager ℕ).runSetups threeSetups).1 ∧
      (((8 : ℕ), (1 : ℚ)), (⟨none, none, some 2, some 3⟩ : ProxyLimiters)) ∈
        threeSetups.zip ((new backendOnly : BandwidthManager ℕ).runSetups threeSetups).1 ∧
      (((7 : ℕ), (2 : ℚ)), (⟨none, none, some 0, some 1⟩ : ProxyLimiters)) ∈
        threeSetups.zip ((new backendOnly : BandwidthManager ℕ).runSetups threeSetups).1 ∧
      ((some 1 = (some 1 : Option ℕ) ↔ toString (7 : ℕ) = toString (7 : ℕ)) ∧
        (some 0 = (some 0 : Option ℕ) ↔ toString (7 : ℕ) = toString (7 : ℕ))) ∧
      ((some 1 = (some 3 : Option ℕ) ↔ toString (7 : ℕ) = toString (8 : ℕ)) ∧
        (some 0 = (some 2 : Option ℕ) ↔ toString (7 : ℕ) = toString (8 : ℕ))) := by
  have h₁ : (((7 : ℕ), (0 : ℚ)), (⟨none, none, some 0, some 1⟩ : ProxyLimiters)) ∈
      threeSetups.zip ((new backendOnly : BandwidthManager ℕ).runSetups threeSetups).1 := by decide
  have h₂ : (((8 : ℕ), (1 : ℚ)), (⟨none, none, some 2, some 3⟩ : ProxyLimiters)) ∈
      threeSetups.zip ((new backendOnly : BandwidthManager ℕ).runSetups threeSetups).1 := by decide
  have h₃ : (((7 : ℕ), (2 : ℚ)), (⟨none, none, some 0, some 1⟩ : ProxyLimiters)) ∈
      threeSetups.zip ((new backendOnly : BandwidthManager ℕ).runSetups threeSetups).1 := by decide
  exact ⟨rfl, rfl, backendValid_new _, h₁, h₂, h₃,
    runSetups_backend_eq_iff rfl rfl (backendValid_new _) h₁ h₃,
    runSetups_backend_eq_iff rfl rfl (backendValid_new _) h₁ h₂⟩

end Run

/-! ## The limiters the manager creates -/

/-- What `get_or_create_limiter` gives a limiter and every call keeps: the bucket
invariant, a burst of 65536 and a rate of at least 1024. -/
structure Fits (l : SimpleLimiter) : Prop where
  inv : l.Inv
  burstSize_eq : l.burstSize.toNat = 65536
  ratePerSec_ge : 1024 ≤ l.ratePerSec.toNat

theorem fits_new (ratePerSec : UInt32) (now : ℚ) :
    Fits (SimpleLimiter.new (max ratePerSec 1024) 65536 now) := by
  refine ⟨SimpleLimiter.inv_new _ _ _, rfl, ?_⟩
  -- `max` of `UInt32`s is `maxOfLe`
  show 1024 ≤ (if ratePerSec ≤ 1024 then 1024 else ratePerSec).toNat
  split
  · exact Nat.le_refl _
  · rename_i hle
    rw [UInt32.le_iff_toNat_le] at hle
    exact (Nat.lt_of_not_le hle).le

/-- One call keeps what the manager gives a limiter. -/
theorem Fits.tryTake {l : SimpleLimiter} (h : Fits l) (now : ℚ) (n : UInt32) :
    Fits (l.tryTake now n).2 :=
  ⟨h.inv.tryTake, by rw [SimpleLimiter.tryTake_burstSize, h.burstSize_eq],
    by rw [SimpleLimiter.tryTake_ratePerSec]; exact h.ratePerSec_ge⟩

/-- Every limiter the manager has created fits. -/
def AllFit (m : BandwidthManager Ip) : Prop := ∀ l ∈ m.limiters, Fits l

theorem allFit_new (config : BandwidthLimitConfig) : (new config : BandwidthManager Ip).AllFit :=
  fun _ h => by cases h

section Getters

variable {K : Type} [DecidableEq K] {map : K → Option Nat} {limiters : List SimpleLimiter}
  {key : K} {now : ℚ}

theorem fits_getOrCreateLimiter (h : ∀ l ∈ limiters, Fits l) (ratePerSec : UInt32) :
    ∀ l ∈ (getOrCreateLimiter map limiters key ratePerSec now).2.2, Fits l := by
  unfold getOrCreateLimiter
  split
  · exact h
  · -- the one limiter it creates
    intro l hl
    rcases List.mem_append.1 hl with hl | hl
    · exact h l hl
    · rw [List.mem_singleton.1 hl]
      exact fits_new _ _

theorem fits_getLimiter {enabled : Bool} {limits : Option BandwidthConfig}
    {rate : BandwidthConfig → UInt32} {r : Nat × (K → Option Nat) × List SimpleLimiter}
    (h : ∀ l ∈ limiters, Fits l) (hr : getLimiter enabled limits rate map limiters key now = some r) :
    ∀ l ∈ r.2.2, Fits l := by
  unfold getLimiter at hr
  split at hr
  · cases hr
  · obtain ⟨b, -, rfl⟩ := Option.map_eq_some_iff.1 hr
    exact fits_getOrCreateLimiter h _

end Getters

section AllFit

variable {m : BandwidthManager Ip} (now : ℚ)

theorem AllFit.getBackendUploadLimiter (h : m.AllFit) (key : String) :
    (m.getBackendUploadLimiter key now).2.AllFit := by
  unfold BandwidthManager.getBackendUploadLimiter
  split
  · exact h
  · rename_i r hr
    exact fits_getLimiter h hr

theorem AllFit.getBackendDownloadLimiter (h : m.AllFit) (key : String) :
    (m.getBackendDownloadLimiter key now).2.AllFit := by
  unfold BandwidthManager.getBackendDownloadLimiter
  split
  · exact h
  · rename_i r hr
    exact fits_getLimiter h hr

variable [DecidableEq Ip]

theorem AllFit.getClientUploadLimiter (h : m.AllFit) (ip : Ip) :
    (m.getClientUploadLimiter ip now).2.AllFit := by
  unfold BandwidthManager.getClientUploadLimiter
  split
  · exact h
  · rename_i r hr
    exact fits_getLimiter h hr

theorem AllFit.getClientDownloadLimiter (h : m.AllFit) (ip : Ip) :
    (m.getClientDownloadLimiter ip now).2.AllFit := by
  unfold BandwidthManager.getClientDownloadLimiter
  split
  · exact h
  · rename_i r hr
    exact fits_getLimiter h hr

variable [ToString Ip]

theorem AllFit.connectionLimiters (h : m.AllFit) (ip : Ip) :
    (m.connectionLimiters ip now).2.AllFit :=
  (((h.getClientUploadLimiter now ip).getClientDownloadLimiter now ip).getBackendDownloadLimiter
    now _).getBackendUploadLimiter now _

/-- Over a run of setups, by induction on the run: each setup's four getters
keep every limiter fitting. -/
theorem AllFit.runSetups (h : m.AllFit) (cs : List (Ip × ℚ)) : (m.runSetups cs).2.AllFit := by
  induction cs generalizing m with
  | nil => exact h
  | cons c cs ih =>
    rw [BandwidthManager.runSetups]
    exact ih (h.connectionLimiters c.2 c.1)

end AllFit

/-! ## The limiters a setup creates -/

/-- `ls'` is `ls` with limiters appended that were just created at `now`, each
with the burst of 65536 `get_or_create_limiter` gives. -/
def Grows (now : ℚ) (ls ls' : List SimpleLimiter) : Prop :=
  ∃ ext, ls' = ls ++ ext ∧ ∀ l ∈ ext, ∃ r, l = SimpleLimiter.new r 65536 now

section Grows

variable {now : ℚ}

theorem Grows.refl (ls : List SimpleLimiter) : Grows now ls ls :=
  ⟨[], (List.append_nil ls).symm, fun _ h => by cases h⟩

theorem Grows.trans {ls₁ ls₂ ls₃ : List SimpleLimiter} (h₁ : Grows now ls₁ ls₂)
    (h₂ : Grows now ls₂ ls₃) : Grows now ls₁ ls₃ := by
  obtain ⟨e₁, rfl, hn₁⟩ := h₁
  obtain ⟨e₂, rfl, hn₂⟩ := h₂
  refine ⟨e₁ ++ e₂, List.append_assoc _ _ _, fun l hl => ?_⟩
  rcases List.mem_append.1 hl with hl | hl
  · exact hn₁ l hl
  · exact hn₂ l hl

/-- The limiters that were there keep their addresses. -/
theorem Grows.getElem?_eq {ls ls' : List SimpleLimiter} (h : Grows now ls ls') {i : Nat}
    (hi : i < ls.length) : ls'[i]? = ls[i]? := by
  obtain ⟨ext, rfl, -⟩ := h
  exact List.getElem?_append_left hi

/-- A limiter at a new address was created at `now`. -/
theorem Grows.getElem?_new {ls ls' : List SimpleLimiter} (h : Grows now ls ls') {i : Nat}
    (hi : ls.length ≤ i) {l : SimpleLimiter} (hl : ls'[i]? = some l) :
    ∃ r, l = SimpleLimiter.new r 65536 now := by
  obtain ⟨ext, rfl, hn⟩ := h
  rw [List.getElem?_append_right hi] at hl
  exact hn l (List.mem_of_getElem? hl)

theorem Grows.length_le {ls ls' : List SimpleLimiter} (h : Grows now ls ls') :
    ls.length ≤ ls'.length := by
  obtain ⟨ext, rfl, -⟩ := h
  rw [List.length_append]
  exact Nat.le_add_right _ _

end Grows

section Creates

variable {K : Type} [DecidableEq K] {map : K → Option Nat} {limiters : List SimpleLimiter}
  {key : K} {now : ℚ}

theorem grows_getOrCreateLimiter (ratePerSec : UInt32) :
    Grows now limiters (getOrCreateLimiter map limiters key ratePerSec now).2.2 := by
  unfold getOrCreateLimiter
  split
  · exact Grows.refl _
  · exact ⟨[_], rfl, fun l hl => ⟨_, List.mem_singleton.1 hl⟩⟩

theorem grows_getLimiter {enabled : Bool} {limits : Option BandwidthConfig}
    {rate : BandwidthConfig → UInt32} {r : Nat × (K → Option Nat) × List SimpleLimiter}
    (h : getLimiter enabled limits rate map limiters key now = some r) : Grows now limiters r.2.2 := by
  unfold getLimiter at h
  split at h
  · cases h
  · obtain ⟨l, -, rfl⟩ := Option.map_eq_some_iff.1 h
    exact grows_getOrCreateLimiter _

end Creates

section Getters

variable (m : BandwidthManager Ip) (now : ℚ)

theorem grows_getBackendUploadLimiter (key : String) :
    Grows now m.limiters (m.getBackendUploadLimiter key now).2.limiters := by
  unfold getBackendUploadLimiter
  split
  · exact Grows.refl _
  · exact grows_getLimiter ‹_›

theorem grows_getBackendDownloadLimiter (key : String) :
    Grows now m.limiters (m.getBackendDownloadLimiter key now).2.limiters := by
  unfold getBackendDownloadLimiter
  split
  · exact Grows.refl _
  · exact grows_getLimiter ‹_›

variable [DecidableEq Ip] (ip : Ip)

theorem grows_getClientUploadLimiter :
    Grows now m.limiters (m.getClientUploadLimiter ip now).2.limiters := by
  unfold getClientUploadLimiter
  split
  · exact Grows.refl _
  · exact grows_getLimiter ‹_›

theorem grows_getClientDownloadLimiter :
    Grows now m.limiters (m.getClientDownloadLimiter ip now).2.limiters := by
  unfold getClientDownloadLimiter
  split
  · exact Grows.refl _
  · exact grows_getLimiter ‹_›

/-- A connection's setup only creates limiters, at its clock reading. -/
theorem grows_connectionLimiters [ToString Ip] :
    Grows now m.limiters (m.connectionLimiters ip now).2.limiters :=
  ((((grows_getClientUploadLimiter m now ip).trans (grows_getClientDownloadLimiter _ now ip)).trans
    (grows_getBackendDownloadLimiter _ now _)).trans (grows_getBackendUploadLimiter _ now _))

end Getters

/-- A setup only appends limiters. -/
theorem Grows.isPrefix {now : ℚ} {ls ls' : List SimpleLimiter} (h : Grows now ls ls') : ls <+: ls' := by
  obtain ⟨ext, rfl, -⟩ := h
  exact List.prefix_append ls ext

theorem limiters_prefix_runSetups [DecidableEq Ip] [ToString Ip] (m : BandwidthManager Ip)
    (cs : List (Ip × ℚ)) : m.limiters <+: (m.runSetups cs).2.limiters := by
  induction cs generalizing m with
  | nil => exact List.prefix_rfl
  | cons c cs ih =>
    rw [runSetups]
    exact (grows_connectionLimiters m c.2 c.1).isPrefix.trans (ih _)

/-! ## What the addresses a setup hands out name -/

/-- The limiter at address `i` of `ls` is one that `get_or_create_limiter` made
for a section rate of `rate`: the bucket invariant, a burst of 65536 and a rate
of `max rate 1024`. -/
def MadeAt (ls : List SimpleLimiter) (rate : UInt32) (i : Nat) : Prop :=
  ∃ l, ls[i]? = some l ∧ l.Inv ∧ l.burstSize = 65536 ∧ l.ratePerSec = max rate 1024

theorem MadeAt.mono {ls ls' : List SimpleLimiter} {rate : UInt32} {i : Nat} (h : MadeAt ls rate i)
    (hp : ls <+: ls') : MadeAt ls' rate i := by
  obtain ⟨l, hl, hrest⟩ := h
  obtain ⟨ext, rfl⟩ := hp
  exact ⟨l, (List.getElem?_append_left (List.getElem?_eq_some_iff.1 hl).1).trans hl, hrest⟩

theorem madeAt_new (ls : List SimpleLimiter) (rate : UInt32) (now : ℚ) :
    MadeAt (ls ++ [SimpleLimiter.new (max rate 1024) 65536 now]) rate ls.length :=
  ⟨SimpleLimiter.new (max rate 1024) 65536 now, by simp, SimpleLimiter.inv_new _ _ _, rfl, rfl⟩

/-- A section's limiter made at an address stays there as the store grows. -/
theorem exists_madeAt_mono {s : Option BandwidthConfig} {rate : BandwidthConfig → UInt32}
    {ls ls' : List SimpleLimiter} {i : Nat} (h : ∃ b, s = some b ∧ MadeAt ls (rate b) i)
    (hp : ls <+: ls') : ∃ b, s = some b ∧ MadeAt ls' (rate b) i :=
  h.imp fun _ hb => ⟨hb.1, hb.2.mono hp⟩

/-- Every address `map` binds names a limiter made at the rate `rate` of the
section `limits`. -/
def Names {K : Type} (limits : Option BandwidthConfig) (rate : BandwidthConfig → UInt32)
    (map : K → Option Nat) (ls : List SimpleLimiter) : Prop :=
  ∀ k i, map k = some i → ∃ b, limits = some b ∧ MadeAt ls (rate b) i

section Names

variable {K : Type} {limits : Option BandwidthConfig} {rate : BandwidthConfig → UInt32}
  {map : K → Option Nat} {limiters : List SimpleLimiter}

theorem Names.mono {ls : List SimpleLimiter} (h : Names limits rate map limiters)
    (hp : limiters <+: ls) : Names limits rate map ls := fun k i hk =>
  exists_madeAt_mono (h k i hk) hp

variable [DecidableEq K] {key : K} {now : ℚ}

/-- `get_or_create_limiter` returns an address that names a limiter made at the
section's rate, and keeps every address of the map naming one: an old address
still names its limiter, and a new one names the limiter just made. -/
theorem names_getOrCreateLimiter (key : K) (now : ℚ) {b : BandwidthConfig}
    (h : Names (some b) rate map limiters) :
    MadeAt (getOrCreateLimiter map limiters key (rate b) now).2.2 (rate b)
        (getOrCreateLimiter map limiters key (rate b) now).1 ∧
      Names (some b) rate (getOrCreateLimiter map limiters key (rate b) now).2.1
        (getOrCreateLimiter map limiters key (rate b) now).2.2 := by
  have hp : limiters <+: (getOrCreateLimiter map limiters key (rate b) now).2.2 :=
    (grows_getOrCreateLimiter (rate b)).isPrefix
  have hall : ∀ k i, (getOrCreateLimiter map limiters key (rate b) now).2.1 k = some i →
      MadeAt (getOrCreateLimiter map limiters key (rate b) now).2.2 (rate b) i := by
    rw [getOrCreateLimiter_map]
    refine Intern.getOrInsert_forall (fun k i hk => ?_) fun hk => ?_
    · obtain ⟨_, hb, hm⟩ := h k i hk
      cases hb
      exact hm.mono hp
    · -- a new key: the address is that of the limiter made now
      unfold getOrCreateLimiter
      rw [hk]
      exact madeAt_new limiters (rate b) now
  refine ⟨hall key _ ?_, fun k i hk => ⟨b, rfl, hall k i hk⟩⟩
  rw [getOrCreateLimiter_map, getOrCreateLimiter_fst]
  exact Intern.getOrInsert_bound _ _ _

/-- The body of the four getters, in the same terms. -/
theorem names_getLimiter {enabled : Bool} {r : Nat × (K → Option Nat) × List SimpleLimiter}
    (h : Names limits rate map limiters)
    (hr : getLimiter enabled limits rate map limiters key now = some r) :
    (∃ b, limits = some b ∧ MadeAt r.2.2 (rate b) r.1) ∧ Names limits rate r.2.1 r.2.2 ∧
      limiters <+: r.2.2 := by
  unfold getLimiter at hr
  split at hr
  · cases hr
  · obtain ⟨b, rfl, rfl⟩ := Option.map_eq_some_iff.1 hr
    obtain ⟨hmade, hnames⟩ := names_getOrCreateLimiter key now h
    exact ⟨⟨b, rfl, hmade⟩, hnames, (grows_getOrCreateLimiter _).isPrefix⟩

end Names

/-- Each of the four maps names limiters made at the rate of its section and
direction. -/
structure Addressed (m : BandwidthManager Ip) : Prop where
  clientUpload : Names m.config.client BandwidthConfig.uploadPerSec m.clientUpload m.limiters
  clientDownload : Names m.config.client BandwidthConfig.downloadPerSec m.clientDownload m.limiters
  backendUpload : Names m.config.backend BandwidthConfig.uploadPerSec m.backendUpload m.limiters
  backendDownload :
    Names m.config.backend BandwidthConfig.downloadPerSec m.backendDownload m.limiters

theorem addressed_new (config : BandwidthLimitConfig) : (new config : BandwidthManager Ip).Addressed where
  clientUpload _ _ h := nomatch h
  clientDownload _ _ h := nomatch h
  backendUpload _ _ h := nomatch h
  backendDownload _ _ h := nomatch h

section Addressed

variable {m : BandwidthManager Ip} (now : ℚ)

/-- `get_backend_upload_limiter` hands out an address made at the backend upload
rate. -/
theorem Addressed.getBackendUploadLimiter (h : m.Addressed) (key : String) :
    (m.getBackendUploadLimiter key now).2.Addressed ∧
      ∀ i, (m.getBackendUploadLimiter key now).1 = some i → ∃ b, m.config.backend = some b ∧
        MadeAt (m.getBackendUploadLimiter key now).2.limiters b.uploadPerSec i := by
  unfold BandwidthManager.getBackendUploadLimiter
  split
  · exact ⟨h, fun _ hi => by cases hi⟩
  · rename_i r hr
    obtain ⟨hmade, hnames, hp⟩ := names_getLimiter h.backendUpload hr
    exact ⟨⟨h.clientUpload.mono hp, h.clientDownload.mono hp, hnames, h.backendDownload.mono hp⟩,
      fun i hi => by cases hi; exact hmade⟩

/-- `get_backend_download_limiter` hands out an address made at the backend
download rate. -/
theorem Addressed.getBackendDownloadLimiter (h : m.Addressed) (key : String) :
    (m.getBackendDownloadLimiter key now).2.Addressed ∧
      ∀ i, (m.getBackendDownloadLimiter key now).1 = some i → ∃ b, m.config.backend = some b ∧
        MadeAt (m.getBackendDownloadLimiter key now).2.limiters b.downloadPerSec i := by
  unfold BandwidthManager.getBackendDownloadLimiter
  split
  · exact ⟨h, fun _ hi => by cases hi⟩
  · rename_i r hr
    obtain ⟨hmade, hnames, hp⟩ := names_getLimiter h.backendDownload hr
    exact ⟨⟨h.clientUpload.mono hp, h.clientDownload.mono hp, h.backendUpload.mono hp, hnames⟩,
      fun i hi => by cases hi; exact hmade⟩

variable [DecidableEq Ip]

/-- `get_client_upload_limiter` hands out an address made at the client upload
rate. -/
theorem Addressed.getClientUploadLimiter (h : m.Addressed) (ip : Ip) :
    (m.getClientUploadLimiter ip now).2.Addressed ∧
      ∀ i, (m.getClientUploadLimiter ip now).1 = some i → ∃ c, m.config.client = some c ∧
        MadeAt (m.getClientUploadLimiter ip now).2.limiters c.uploadPerSec i := by
  unfold BandwidthManager.getClientUploadLimiter
  split
  · exact ⟨h, fun _ hi => by cases hi⟩
  · rename_i r hr
    obtain ⟨hmade, hnames, hp⟩ := names_getLimiter h.clientUpload hr
    exact ⟨⟨hnames, h.clientDownload.mono hp, h.backendUpload.mono hp, h.backendDownload.mono hp⟩,
      fun i hi => by cases hi; exact hmade⟩

/-- `get_client_download_limiter` hands out an address made at the client
download rate. -/
theorem Addressed.getClientDownloadLimiter (h : m.Addressed) (ip : Ip) :
    (m.getClientDownloadLimiter ip now).2.Addressed ∧
      ∀ i, (m.getClientDownloadLimiter ip now).1 = some i → ∃ c, m.config.client = some c ∧
        MadeAt (m.getClientDownloadLimiter ip now).2.limiters c.downloadPerSec i := by
  unfold BandwidthManager.getClientDownloadLimiter
  split
  · exact ⟨h, fun _ hi => by cases hi⟩
  · rename_i r hr
    obtain ⟨hmade, hnames, hp⟩ := names_getLimiter h.clientDownload hr
    exact ⟨⟨h.clientUpload.mono hp, hnames, h.backendUpload.mono hp, h.backendDownload.mono hp⟩,
      fun i hi => by cases hi; exact hmade⟩

end Addressed

/-- The four limiters of a `ProxyConfig` name, in `ls`, limiters made at the
rates of their sides: the client's upload rate for its reads, its download rate
for its writes, the backend's download rate for its reads and its upload rate
for its writes. -/
structure ProxyLimiters.MadeIn (config : BandwidthLimitConfig) (ls : List SimpleLimiter)
    (pl : ProxyLimiters) : Prop where
  clientRead : ∀ i, pl.clientReadLimiter = some i →
    ∃ c, config.client = some c ∧ MadeAt ls c.uploadPerSec i
  clientWrite : ∀ i, pl.clientWriteLimiter = some i →
    ∃ c, config.client = some c ∧ MadeAt ls c.downloadPerSec i
  backendRead : ∀ i, pl.backendReadLimiter = some i →
    ∃ b, config.backend = some b ∧ MadeAt ls b.downloadPerSec i
  backendWrite : ∀ i, pl.backendWriteLimiter = some i →
    ∃ b, config.backend = some b ∧ MadeAt ls b.uploadPerSec i

theorem ProxyLimiters.MadeIn.mono {config : BandwidthLimitConfig} {ls ls' : List SimpleLimiter}
    {pl : ProxyLimiters} (h : pl.MadeIn config ls) (hp : ls <+: ls') : pl.MadeIn config ls' :=
  ⟨fun i hi => exists_madeAt_mono (h.clientRead i hi) hp,
    fun i hi => exists_madeAt_mono (h.clientWrite i hi) hp,
    fun i hi => exists_madeAt_mono (h.backendRead i hi) hp,
    fun i hi => exists_madeAt_mono (h.backendWrite i hi) hp⟩

section Run

variable [DecidableEq Ip] [ToString Ip] {m : BandwidthManager Ip}

/-- A connection's setup hands out limiters made at the rates of their sides:
each getter's address names its limiter, and the getters after it only append. -/
theorem Addressed.connectionLimiters (h : m.Addressed) (ip : Ip) (now : ℚ) :
    (m.connectionLimiters ip now).2.Addressed ∧
      (m.connectionLimiters ip now).1.MadeIn m.config (m.connectionLimiters ip now).2.limiters := by
  let m₁ := (m.getClientUploadLimiter ip now).2
  let m₂ := (m₁.getClientDownloadLimiter ip now).2
  let m₃ := (m₂.getBackendDownloadLimiter (toString ip) now).2
  obtain ⟨h₁, hr₁⟩ := h.getClientUploadLimiter now ip
  obtain ⟨h₂, hr₂⟩ := h₁.getClientDownloadLimiter now ip
  obtain ⟨h₃, hr₃⟩ := h₂.getBackendDownloadLimiter now (toString ip)
  obtain ⟨h₄, hr₄⟩ := h₃.getBackendUploadLimiter now (toString ip)
  have hp₃ : m₃.limiters <+: (m.connectionLimiters ip now).2.limiters :=
    (grows_getBackendUploadLimiter m₃ now _).isPrefix
  have hp₂ : m₂.limiters <+: (m.connectionLimiters ip now).2.limiters :=
    (grows_getBackendDownloadLimiter m₂ now _).isPrefix.trans hp₃
  have hp₁ : m₁.limiters <+: (m.connectionLimiters ip now).2.limiters :=
    (grows_getClientDownloadLimiter m₁ now ip).isPrefix.trans hp₂
  have hc₁ : m₁.config = m.config := getClientUploadLimiter_config m ip now
  have hc₂ : m₂.config = m.config := (getClientDownloadLimiter_config m₁ ip now).trans hc₁
  have hc₃ : m₃.config = m.config := (getBackendDownloadLimiter_config m₂ _ now).trans hc₂
  refine ⟨h₄, ⟨fun i hi => ?_, fun i hi => ?_, fun i hi => ?_, fun i hi => ?_⟩⟩
  · exact exists_madeAt_mono (hr₁ i hi) hp₁
  · rw [← hc₁]
    exact exists_madeAt_mono (hr₂ i hi) hp₂
  · rw [← hc₂]
    exact exists_madeAt_mono (hr₃ i hi) hp₃
  · rw [← hc₃]
    exact hr₄ i hi

/-- Over a run of setups, by induction on the run: every connection's limiters
name, at the end of the run, limiters made at the rates of their sides. -/
theorem Addressed.runSetups (h : m.Addressed) (cs : List (Ip × ℚ)) :
    (m.runSetups cs).2.Addressed ∧
      ∀ pl ∈ (m.runSetups cs).1, pl.MadeIn m.config (m.runSetups cs).2.limiters := by
  induction cs generalizing m with
  | nil => exact ⟨h, fun _ hpl => by cases hpl⟩
  | cons c cs ih =>
    obtain ⟨h₁, hmade⟩ := h.connectionLimiters c.1 c.2
    obtain ⟨hA, hrest⟩ := ih h₁
    have hc := connectionLimiters_config (m := m) c.1 c.2
    rw [runSetups]
    refine ⟨hA, fun pl hpl => ?_⟩
    rcases List.mem_cons.1 hpl with rfl | hpl
    · -- the first connection's limiters stay where its setup put them
      exact hmade.mono (limiters_prefix_runSetups _ cs)
    · rw [← hc]
      exact hrest pl hpl

end Run

end BandwidthManager

/-- Two clients, `10.0.0.1` and `10.0.0.2`, connect at time `0` with bandwidth
limiting on and a backend section of 1024 bytes per second each way.  Their
connections get different backend limiters, upload `1` and `3`, download `0`
and `2`: four fresh limiters with a burst of 65536, each of which grants 65536
bytes at once. -/
theorem backend_limiters_per_client_ip :
    ((BandwidthManager.new ⟨true, none, some ⟨1024, 1024⟩⟩ : BandwidthManager Ipv4Addr).runSetups
        [(⟨10, 0, 0, 1⟩, 0), (⟨10, 0, 0, 2⟩, 0)]).1.map BandwidthManager.ProxyLimiters.backendWriteLimiter =
        [some 1, some 3] ∧
      ((BandwidthManager.new ⟨true, none, some ⟨1024, 1024⟩⟩ : BandwidthManager Ipv4Addr).runSetups
        [(⟨10, 0, 0, 1⟩, 0), (⟨10, 0, 0, 2⟩, 0)]).1.map BandwidthManager.ProxyLimiters.backendReadLimiter =
        [some 0, some 2] ∧
      ((BandwidthManager.new ⟨true, none, some ⟨1024, 1024⟩⟩ : BandwidthManager Ipv4Addr).runSetups
        [(⟨10, 0, 0, 1⟩, 0), (⟨10, 0, 0, 2⟩, 0)]).2.limiters =
        List.replicate 4 (SimpleLimiter.new 1024 65536 0) ∧
      ((SimpleLimiter.new 1024 65536 0).checkN 0 65536).1.isOk = true := by
  refine ⟨by decide, by decide, by decide, ?_⟩
  -- no time has passed: the full bucket of 65536 is taken at once
  simp [SimpleLimiter.checkN_isOk, SimpleLimiter.tryTake, SimpleLimiter.refill, SimpleLimiter.new]

end Layer4Lb
