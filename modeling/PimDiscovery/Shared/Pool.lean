import PimDiscovery.Interaction.Pump
import PimDiscovery.Shared.Exchange

/-! The stream pool, and the pump that runs a coroutine over one. -/

namespace PimDiscovery
open Interaction

structure StreamPoolKey where
  scheme : String
  host : String
  port : UInt16
  deriving DecidableEq, Repr

def StreamPoolKey.ofUrl (url : Url) : Option StreamPoolKey :=
  match url.host, url.portOrKnownDefault with
  | some host, some port => some
      { scheme := Text.toAsciiLowercase url.scheme, host := Text.toAsciiLowercase host, port }
  | _, _ => none

theorem StreamPoolKey.ofUrl_scheme {url : Url} {key : StreamPoolKey} (h : ofUrl url = some key) :
    key.scheme = Text.toAsciiLowercase url.scheme := by
  unfold ofUrl at h
  split at h
  · rw [← Option.some.inj h]
  · exact nomatch h

/-- An open stream: the factory that opened it, and which of the pool's connections it is. -/
structure DiscoveryStream where
  factory : String
  id : Nat
  deriving DecidableEq, Repr

structure DiscoveryStreamPool where
  streams : List (StreamPoolKey × DiscoveryStream)
  factories : List String
  opened : Nat
  deriving DecidableEq, Repr

namespace DiscoveryStreamPool

def withFactory (self : DiscoveryStreamPool) (scheme : String) : DiscoveryStreamPool :=
  { self with factories := self.factories.insert scheme }

def new : DiscoveryStreamPool :=
  withFactory { streams := [], factories := [], opened := 0 } "tcp"

def withHttpFactories (self : DiscoveryStreamPool) : DiscoveryStreamPool :=
  (self.withFactory "http").withFactory "https"

def withoutFactory (self : DiscoveryStreamPool) (scheme : String) : DiscoveryStreamPool :=
  { self with factories := self.factories.filter (· ≠ scheme) }

/-- The stream open on `url`, opened first if needed; `connects` says whether that succeeds. -/
def get (self : DiscoveryStreamPool) (url : Url) (connects : Bool) :
    Option DiscoveryStream × DiscoveryStreamPool :=
  match StreamPoolKey.ofUrl url with
  | none => (none, self)
  | some key =>
    match self.streams.lookup key with
    | some stream => (some stream, self)
    | none =>
      if key.scheme ∈ self.factories && connects then
        let stream := { factory := key.scheme, id := self.opened }
        (some stream, { self with streams := (key, stream) :: self.streams, opened := self.opened + 1 })
      else (none, self)

structure Holds (factories : List String) (pool : DiscoveryStreamPool) : Prop where
  registered : pool.factories = factories
  opened : ∀ entry ∈ pool.streams, entry.2.factory = entry.1.scheme ∧ entry.1.scheme ∈ factories

theorem get_holds {factories : List String} {self : DiscoveryStreamPool}
    (h : Holds factories self) (url : Url) (connects : Bool) :
    Holds factories (self.get url connects).2 := by
  unfold get
  cases hkey : StreamPoolKey.ofUrl url with
  | none => exact h
  | some key =>
    simp only
    cases hstream : self.streams.lookup key with
    | some stream => exact h
    | none =>
      simp only
      split
      · rename_i hopen
        rw [Bool.and_eq_true, decide_eq_true_eq, h.registered] at hopen
        refine ⟨h.registered, fun entry hentry => ?_⟩
        rcases List.mem_cons.mp hentry with rfl | hentry
        · exact ⟨rfl, hopen.1⟩
        · exact h.opened entry hentry
      · exact h

theorem get_factory {factories : List String} {self : DiscoveryStreamPool}
    (h : Holds factories self) {url : Url} {connects : Bool} {stream : DiscoveryStream}
    (hget : (self.get url connects).1 = some stream) :
    ∃ key, StreamPoolKey.ofUrl url = some key ∧ stream.factory = key.scheme ∧
      key.scheme ∈ factories := by
  unfold get at hget
  cases hkey : StreamPoolKey.ofUrl url with
  | none => simp [hkey] at hget
  | some key =>
    refine ⟨key, rfl, ?_⟩
    simp only [hkey] at hget
    cases hstream : self.streams.lookup key with
    | some found =>
      simp only [hstream] at hget
      obtain rfl := Option.some.inj hget
      have hmem : (key, found) ∈ self.streams := by
        obtain ⟨before, after, hsplit, -⟩ := List.lookup_eq_some_iff.mp hstream
        simp [hsplit]
      exact h.opened _ hmem
    | none =>
      simp only [hstream] at hget
      split at hget
      · rename_i hopen
        rw [Bool.and_eq_true, decide_eq_true_eq, h.registered] at hopen
        obtain rfl := Option.some.inj hget
        exact ⟨rfl, hopen.1⟩
      · exact nomatch hget

end DiscoveryStreamPool

/-- How one read or write goes: whether a missing stream opens, and the bytes read, `none` where the
I/O fails. -/
structure StreamIo where
  connects : Bool
  result : Option Bytes

structure Delivery where
  stream : DiscoveryStream
  url : Url
  bytes : Bytes
  deriving DecidableEq

def readBufferSize : Nat := 8 * 1024

/-- One round of the `run` loop. An I/O failure is signalled as EOF. -/
def runYield : Driver Bytes DiscoveryYield DiscoveryStreamPool StreamIo Delivery
  | pool, .wantsRead url, io =>
    match pool.get url io.connects with
    | (some _, pool) => (pool, some ((io.result.getD []).take readBufferSize), [])
    | (none, pool) => (pool, some [], [])
  | pool, .wantsWrite url bytes, io =>
    match pool.get url io.connects with
    | (some stream, pool) =>
      (pool, if io.result.isSome then none else some [], [{ stream, url, bytes }])
    | (none, pool) => (pool, some [], [])

theorem runYield_holds {factories : List String} (pool : DiscoveryStreamPool) (y : DiscoveryYield)
    (io : StreamIo) (h : pool.Holds factories) :
    (runYield pool y io).1.Holds factories := by
  cases y with
  | wantsRead url =>
    have hget := DiscoveryStreamPool.get_holds h url io.connects
    simp only [runYield]
    generalize pool.get url io.connects = got at hget ⊢
    obtain ⟨_ | stream, pool'⟩ := got <;> exact hget
  | wantsWrite url bytes =>
    have hget := DiscoveryStreamPool.get_holds h url io.connects
    simp only [runYield]
    generalize pool.get url io.connects = got at hget ⊢
    obtain ⟨_ | stream, pool'⟩ := got <;> exact hget

theorem runYield_delivery {factories : List String} {pool : DiscoveryStreamPool}
    {y : DiscoveryYield} {io : StreamIo} (h : pool.Holds factories) {d : Delivery}
    (hd : d ∈ (runYield pool y io).2.2) :
    y = .wantsWrite d.url d.bytes ∧ ∃ key, StreamPoolKey.ofUrl d.url = some key ∧
      d.stream.factory = key.scheme ∧ key.scheme ∈ factories := by
  cases y with
  | wantsRead url =>
    simp only [runYield] at hd
    generalize pool.get url io.connects = got at hd
    obtain ⟨_ | stream, pool'⟩ := got <;> exact nomatch hd
  | wantsWrite url bytes =>
    have hget := @DiscoveryStreamPool.get_factory factories pool h url io.connects
    simp only [runYield] at hd
    generalize pool.get url io.connects = got at hget hd
    obtain ⟨_ | stream, pool'⟩ := got
    · exact nomatch hd
    · obtain rfl := List.mem_singleton.mp hd
      exact ⟨rfl, hget rfl⟩

/-- `run`: pumps a coroutine through the pool, over the outcomes of its I/O in turn. -/
def run {σ ρ : Type} (resume : σ → Option Bytes → Step DiscoveryYield σ ρ)
    (pool : DiscoveryStreamPool) (coroutine : σ) (script : List StreamIo) :
    Pumped DiscoveryStreamPool StreamIo Delivery ρ :=
  pump runYield resume coroutine none pool script

end PimDiscovery
