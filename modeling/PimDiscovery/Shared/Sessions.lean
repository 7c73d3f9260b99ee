import PimDiscovery.Interaction.Strict
import PimDiscovery.Shared.Reuse

/-! The runs of the standalone clients beside those of the compose client, and the connections that a pool
opens over a session of them. -/

namespace PimDiscovery
open Interaction

def ioFailure (pool : DiscoveryStreamPool) (y : DiscoveryYield) (io : StreamIo) : Option ClientError :=
  match (pool.get y.url io.connects).1, io.result with
  | none, _ => some .pool
  | some _, none => some .io
  | some _, some _ => none

/-- The compose client signals as EOF what a standalone client returns. -/
theorem clientYield_handed (pool : DiscoveryStreamPool) (y : DiscoveryYield) (io : StreamIo) :
    (clientYield pool y io).2.1 = (ioFailure pool y io).elim ((composeYield pool y io).2.1.map .ok)
      fun err => some (.error err) := by
  cases y with
  | wantsRead url =>
    simp only [clientYield, composeYield, runYield, ioFailure, DiscoveryYield.url]
    rcases pool.get url io.connects with ⟨_ | stream, pool'⟩
    · rfl
    · cases io.result <;> rfl
  | wantsWrite url bytes =>
    simp only [clientYield, composeYield, runYield, ioFailure, DiscoveryYield.url]
    rcases pool.get url io.connects with ⟨_ | stream, pool'⟩
    · rfl
    · cases io.result <;> rfl

theorem client_givesUp : GivesUp ioFailure clientYield composeYield where
  world pool y io := (clientYield_access pool y io).1.trans (composeYield_access pool y io).1.symm
  events pool y io := (clientYield_access pool y io).2.trans (composeYield_access pool y io).2.symm
  goesOn pool y io h := by
    rw [clientYield_handed, h]
    rfl
  givesUp pool y io err h := by
    rw [clientYield_handed, h]
    rfl

/-- A standalone client returns the first I/O failure that the compose client's run of the coroutine meets,
and where it meets none, what that returns; it accesses the pool as that does, up to there. -/
theorem clientRun_eq_composeRun {σ ρ : Type} (resume : σ → Option Bytes → Step DiscoveryYield σ ρ)
    (pool : DiscoveryStreamPool) (coroutine : σ) (script : List StreamIo) :
    let client := clientRun resume pool coroutine script
    let compose := composeRun resume pool coroutine script
    let failed := firstFailure ioFailure (rounds composeYield resume coroutine none pool script)
    client.result = failed.elim (compose.result.map .ok) (fun err => some (.error err)) ∧
      client.events <+: compose.events ∧
      (failed = none → client.events = compose.events ∧ client.world = compose.world) :=
  client_givesUp.pump resume coroutine none pool script

namespace DiscoveryStreamPool

def keys (pool : DiscoveryStreamPool) : List StreamPoolKey := pool.streams.map Prod.fst

theorem mem_keys_of_lookup {pool : DiscoveryStreamPool} {key : StreamPoolKey} {stream : DiscoveryStream}
    (h : pool.streams.lookup key = some stream) : key ∈ pool.keys :=
  List.mem_map_of_mem (mem_of_lookup h)

theorem not_mem_keys_of_lookup {pool : DiscoveryStreamPool} {key : StreamPoolKey}
    (h : pool.streams.lookup key = none) : key ∉ pool.keys := by
  intro hmem
  obtain ⟨entry, hentry, rfl⟩ := List.mem_map.mp hmem
  have hne := List.lookup_eq_none_iff.mp h entry hentry
  rw [bne_self_eq_false] at hne
  cases hne

theorem Got.opens {self after : DiscoveryStreamPool} {url : Url} {handed : Option DiscoveryStream}
    (h : self.Got url handed after) :
    (after = self ∧ ∀ key, handed.isSome = true → StreamPoolKey.ofUrl url = some key → key ∈ self.keys) ∨
    ∃ key, handed.isSome = true ∧ StreamPoolKey.ofUrl url = some key ∧ key ∉ self.keys ∧
      after = { self with
        streams := (key, { factory := key.scheme, id := self.opened }) :: self.streams
        opened := self.opened + 1 } := by
  cases h with
  | keyless | refused =>
    refine .inl ⟨rfl, fun key hsome => ?_⟩
    cases hsome
  | @cached key stream hkey hstream =>
    refine .inl ⟨rfl, fun other _ hother => ?_⟩
    obtain rfl := Option.some.inj (hkey.symm.trans hother)
    exact mem_keys_of_lookup hstream
  | @opened key hkey hmissing => exact .inr ⟨key, rfl, hkey, not_mem_keys_of_lookup hmissing, rfl⟩

end DiscoveryStreamPool

def Access.handedKey (self : Access) : Option StreamPoolKey :=
  if self.stream.isSome then self.key else none

/-- The keys beside those held, in the order in which a stream is first handed out for each. -/
def newKeys (held : List StreamPoolKey) (log : List Access) : List StreamPoolKey :=
  ((log.filterMap Access.handedKey).filter (· ∉ held)).eraseDups

def connections (opened : Nat) (keys : List StreamPoolKey) : List (StreamPoolKey × DiscoveryStream) :=
  keys.mapIdx fun i key => (key, { factory := key.scheme, id := opened + i })

theorem connections_cons (opened : Nat) (key : StreamPoolKey) (keys : List StreamPoolKey) :
    connections opened (key :: keys) =
      (key, { factory := key.scheme, id := opened }) :: connections (opened + 1) keys := by
  unfold connections
  rw [List.mapIdx_cons, Nat.add_zero]
  congr 2
  funext i key
  rw [Nat.add_assoc, Nat.add_comm 1 i]

section
variable {held : List StreamPoolKey} {first : Access} {log : List Access}

theorem newKeys_cons_held (h : ∀ key, first.handedKey = some key → key ∈ held) :
    newKeys held (first :: log) = newKeys held log := by
  unfold newKeys
  cases hfirst : first.handedKey with
  | none => rw [List.filterMap_cons_none hfirst]
  | some key =>
    rw [List.filterMap_cons_some hfirst, List.filter_cons_of_neg]
    simpa using h key hfirst

theorem newKeys_cons_new {key : StreamPoolKey} (hfirst : first.handedKey = some key) (h : key ∉ held) :
    newKeys held (first :: log) = key :: newKeys (key :: held) log := by
  unfold newKeys
  rw [List.filterMap_cons_some hfirst, List.filter_cons_of_pos (by simpa using h), List.eraseDups_cons,
    List.filter_filter]
  congr 3
  funext other
  rw [Bool.eq_iff_iff]
  simp

end

theorem Accessed.opens {pool pool' : DiscoveryStreamPool} {log : List Access} (h : Accessed pool log pool') :
    pool'.streams = (connections pool.opened (newKeys pool.keys log)).reverse ++ pool.streams ∧
      pool'.opened = pool.opened + (newKeys pool.keys log).length := by
  induction h with
  | nil pool => exact ⟨rfl, rfl⟩
  | @cons pool y io log pool' _ ih =>
    have hhanded : ∀ key, (access pool y io).handedKey = some key →
        (pool.get y.url io.connects).1.isSome = true ∧ StreamPoolKey.ofUrl y.url = some key := by
      intro key hkey
      unfold Access.handedKey at hkey
      split at hkey
      · exact ⟨‹_›, hkey⟩
      · cases hkey
    rcases (pool.get_got y.url io.connects).opens with ⟨hafter, hheld⟩ | ⟨key, hsome, hkey, hnew, hafter⟩
    · rw [hafter] at ih
      rw [newKeys_cons_held fun key hfirst => hheld key (hhanded key hfirst).1 (hhanded key hfirst).2]
      exact ih
    · have hfirst : (access pool y io).handedKey = some key := (if_pos hsome).trans hkey
      rw [hafter] at ih
      obtain ⟨hstreams, hopened⟩ := ih
      rw [newKeys_cons_new hfirst hnew, connections_cons, List.reverse_cons, List.length_cons]
      refine ⟨?_, ?_⟩
      · rw [List.append_assoc]
        exact hstreams
      · rw [hopened]
        exact Nat.succ_add_eq_add_succ pool.opened _

/-- Over a session a pool opens one connection for each scheme, host and port that it hands a stream for
and had none for, in the order in which it first does, and keeps those it had. -/
theorem session_opened {pool pool' : DiscoveryStreamPool} {log : List Access} (h : Session pool log pool') :
    pool'.streams = (connections pool.opened (newKeys pool.keys log)).reverse ++ pool.streams ∧
      pool'.opened = pool.opened + (newKeys pool.keys log).length :=
  h.accessed.opens

theorem lookup_and_fetch_opened :
    letI := plainUrl
    letI := plainDns
    letI := plainHttp
    letI := plainSerde
    let pool := DiscoveryStreamPool.new.withHttpFactories
    let first := clientRun DiscoveryMailconf.resume pool
      (DiscoveryMailconf.new "example.org" exampleResolver) closedScript
    let second := clientRun DiscoveryIsp.resume first.world (DiscoveryIsp.new exampleOrigin) failedScript
    let log := first.events ++ (second.events ++ [])
    log.length = 3 ∧ (newKeys pool.keys log).map (·.scheme) = ["tcp", "https"] ∧
      second.world.streams = (connections pool.opened (newKeys pool.keys log)).reverse ++ pool.streams ∧
      second.world.opened = pool.opened + (newKeys pool.keys log).length := by
  let _ := plainUrl
  let _ := plainDns
  let _ := plainHttp
  let _ := plainSerde
  refine ⟨by decide +kernel, by decide +kernel, ?_⟩
  exact session_opened (.called _ _ _ _ (.called _ _ _ _ (.nil _)))

end PimDiscovery
