import PimDiscovery.Autoconfig.Isp
import PimDiscovery.Autoconfig.Lookups
import PimDiscovery.PlainNet
import PimDiscovery.Shared.Pool

/-! The streams of a pool over a sequence of runs: which ones are handed out again. -/

namespace PimDiscovery
open Interaction

namespace DiscoveryStreamPool

/-- Pre-feeds a stream for one URL, in place of the one that is open on it. -/
def insert (self : DiscoveryStreamPool) (url : Url) : DiscoveryStreamPool :=
  match StreamPoolKey.ofUrl url with
  | none => self
  | some key =>
    -- No factory opened this one.
    let stream := { factory := "", id := self.opened }
    { self with
      streams := (key, stream) :: self.streams.filter (·.1 ≠ key), opened := self.opened + 1 }

structure Numbered (pool : DiscoveryStreamPool) : Prop where
  below : ∀ entry ∈ pool.streams, entry.2.id < pool.opened
  distinct : ∀ entry ∈ pool.streams, ∀ other ∈ pool.streams, entry.2 = other.2 → entry.1 = other.1

theorem Numbered.of_streams_eq_nil {pool : DiscoveryStreamPool} (h : pool.streams = []) :
    pool.Numbered := by
  refine ⟨?_, ?_⟩
  · rw [h]
    exact List.forall_mem_nil _
  · rw [h]
    exact List.forall_mem_nil _

theorem Numbered.opening {pool : DiscoveryStreamPool} (h : pool.Numbered) (key : StreamPoolKey)
    (factory : String) {kept : List (StreamPoolKey × DiscoveryStream)} (hkept : kept ⊆ pool.streams) :
    Numbered
      { pool with
        streams := (key, { factory, id := pool.opened }) :: kept, opened := pool.opened + 1 } := by
  have hnew : ∀ entry ∈ kept, entry.2 ≠ { factory, id := pool.opened } := by
    intro entry hentry heq
    have hlt := h.below entry (hkept hentry)
    rw [heq] at hlt
    exact absurd hlt (Nat.lt_irrefl _)
  refine ⟨?_, ?_⟩
  · intro entry hentry
    rcases List.mem_cons.mp hentry with rfl | hentry
    · exact Nat.lt_succ_self _
    · exact Nat.lt_succ_of_lt (h.below entry (hkept hentry))
  · intro entry hentry other hother hsame
    rcases List.mem_cons.mp hentry with rfl | hentry <;> rcases List.mem_cons.mp hother with rfl | hother
    · rfl
    · exact absurd hsame.symm (hnew other hother)
    · exact absurd hsame (hnew entry hentry)
    · exact h.distinct entry (hkept hentry) other (hkept hother) hsame

theorem mem_of_lookup {streams : List (StreamPoolKey × DiscoveryStream)} {key : StreamPoolKey}
    {stream : DiscoveryStream} (h : streams.lookup key = some stream) : (key, stream) ∈ streams := by
  obtain ⟨before, after, hsplit, -⟩ := List.lookup_eq_some_iff.mp h
  simp [hsplit]

theorem Numbered.key_unique {pool : DiscoveryStreamPool} (h : pool.Numbered) {key other : StreamPoolKey}
    {stream : DiscoveryStream} (hkey : pool.streams.lookup key = some stream)
    (hother : pool.streams.lookup other = some stream) : key = other :=
  h.distinct _ (mem_of_lookup hkey) _ (mem_of_lookup hother) rfl

theorem new_numbered : new.Numbered := .of_streams_eq_nil rfl

theorem insert_numbered {self : DiscoveryStreamPool} (h : self.Numbered) (url : Url) :
    (self.insert url).Numbered := by
  unfold insert
  cases StreamPoolKey.ofUrl url with
  | none => exact h
  | some key => exact h.opening key "" List.filter_sublist.subset

/-- What a `get` does: nothing for a URL without a key; else it hands out the stream that is open for the
key, or the one that the factory opens, or none where it opens none. -/
inductive Got (self : DiscoveryStreamPool) (url : Url) :
    Option DiscoveryStream → DiscoveryStreamPool → Prop where
  | keyless (hkey : StreamPoolKey.ofUrl url = none) : Got self url none self
  | cached {key : StreamPoolKey} {stream : DiscoveryStream} (hkey : StreamPoolKey.ofUrl url = some key)
      (hstream : self.streams.lookup key = some stream) : Got self url (some stream) self
  | opened {key : StreamPoolKey} (hkey : StreamPoolKey.ofUrl url = some key)
      (hstream : self.streams.lookup key = none) :
      Got self url (some { factory := key.scheme, id := self.opened })
        { self with
          streams := (key, { factory := key.scheme, id := self.opened }) :: self.streams
          opened := self.opened + 1 }
  | refused {key : StreamPoolKey} (hkey : StreamPoolKey.ofUrl url = some key)
      (hstream : self.streams.lookup key = none) : Got self url none self

theorem get_got (self : DiscoveryStreamPool) (url : Url) (connects : Bool) :
    self.Got url (self.get url connects).1 (self.get url connects).2 := by
  unfold get
  cases hkey : StreamPoolKey.ofUrl url with
  | none => exact .keyless hkey
  | some key =>
    simp only
    cases hstream : self.streams.lookup key with
    | some stream => exact .cached hkey hstream
    | none =>
      simp only
      split
      · exact .opened hkey hstream
      · exact .refused hkey hstream

namespace Got
variable {self after : DiscoveryStreamPool} {url : Url} {handed : Option DiscoveryStream}

theorem numbered (h : self.Got url handed after) (hself : self.Numbered) : after.Numbered := by
  cases h with
  | keyless | cached | refused => exact hself
  | opened => exact hself.opening _ _ (List.Subset.refl _)

theorem keeps (h : self.Got url handed after) {key : StreamPoolKey} {stream : DiscoveryStream}
    (hstream : self.streams.lookup key = some stream) : after.streams.lookup key = some stream := by
  cases h with
  | keyless | cached | refused => exact hstream
  | @opened key' hkey hmissing =>
    have hne : key ≠ key' := by
      rintro rfl
      rw [hmissing] at hstream
      cases hstream
    rw [List.lookup_cons, beq_eq_false_iff_ne.mpr hne]
    exact hstream

theorem stored (h : self.Got url handed after) {stream : DiscoveryStream} (hhanded : handed = some stream) :
    ∃ key, StreamPoolKey.ofUrl url = some key ∧ after.streams.lookup key = some stream := by
  cases h with
  | keyless | refused => cases hhanded
  | cached hkey hstream =>
    obtain rfl := Option.some.inj hhanded
    exact ⟨_, hkey, hstream⟩
  | opened hkey =>
    obtain rfl := Option.some.inj hhanded
    exact ⟨_, hkey, by rw [List.lookup_cons_self]⟩

theorem handed_of_open (h : self.Got url handed after) {key : StreamPoolKey} {stream : DiscoveryStream}
    (hkey : StreamPoolKey.ofUrl url = some key) (hstream : self.streams.lookup key = some stream) :
    handed = some stream := by
  have hopen : ∀ {key'}, StreamPoolKey.ofUrl url = some key' →
      self.streams.lookup key' = some stream := by
    intro key' hkey'
    obtain rfl := Option.some.inj (hkey.symm.trans hkey')
    exact hstream
  cases h with
  | keyless hnone =>
    rw [hnone] at hkey
    cases hkey
  | cached hkey' hstream' => exact hstream'.symm.trans (hopen hkey')
  | opened hkey' hmissing =>
    rw [hopen hkey'] at hmissing
    cases hmissing
  | refused hkey' hmissing =>
    rw [hopen hkey'] at hmissing
    cases hmissing

end Got
end DiscoveryStreamPool

structure Access where
  url : Url
  /-- The pool had a stream for the URL already. -/
  cached : Bool
  stream : Option DiscoveryStream
  /-- The read returned no bytes, or the read or write failed. -/
  died : Bool
  deriving DecidableEq

def Access.key (self : Access) : Option StreamPoolKey := StreamPoolKey.ofUrl self.url

def StreamIo.ends (self : StreamIo) : DiscoveryYield → Bool
  | .wantsRead _ => (self.result.getD []).isEmpty
  | .wantsWrite _ _ => self.result.isNone

def access (pool : DiscoveryStreamPool) (y : DiscoveryYield) (io : StreamIo) : Access where
  url := y.url
  cached := ((StreamPoolKey.ofUrl y.url).bind fun key => pool.streams.lookup key).isSome
  stream := (pool.get y.url io.connects).1
  died := (pool.get y.url io.connects).1.isSome && io.ends y

def composeYield : Driver Bytes DiscoveryYield DiscoveryStreamPool StreamIo Access
  | pool, y, io => ((runYield pool y io).1, (runYield pool y io).2.1, [access pool y io])

inductive ClientError where
  | io
  | pool
  deriving DecidableEq, Repr

/-- One round of the `run` of a standalone client, which returns any failure. -/
def clientYield : Driver (Except ClientError Bytes) DiscoveryYield DiscoveryStreamPool StreamIo Access
  | pool, .wantsRead url, io =>
    let accessed := [access pool (.wantsRead url) io]
    match pool.get url io.connects with
    | (none, pool) => (pool, some (.error .pool), accessed)
    | (some _, pool) =>
      match io.result with
      | none => (pool, some (.error .io), accessed)
      | some bytes => (pool, some (.ok (bytes.take readBufferSize)), accessed)
  | pool, .wantsWrite url bytes, io =>
    let accessed := [access pool (.wantsWrite url bytes) io]
    match pool.get url io.connects with
    | (none, pool) => (pool, some (.error .pool), accessed)
    | (some _, pool) =>
      match io.result with
      | none => (pool, some (.error .io), accessed)
      | some _ => (pool, none, accessed)

theorem composeYield_access (pool : DiscoveryStreamPool) (y : DiscoveryYield) (io : StreamIo) :
    (composeYield pool y io).1 = (pool.get y.url io.connects).2 ∧
      (composeYield pool y io).2.2 = [access pool y io] := by
  refine ⟨?_, rfl⟩
  cases y with
  | wantsRead url =>
    simp only [composeYield, runYield, DiscoveryYield.url]
    rcases pool.get url io.connects with ⟨_ | stream, pool'⟩ <;> rfl
  | wantsWrite url bytes =>
    simp only [composeYield, runYield, DiscoveryYield.url]
    rcases pool.get url io.connects with ⟨_ | stream, pool'⟩ <;> rfl

theorem clientYield_access (pool : DiscoveryStreamPool) (y : DiscoveryYield) (io : StreamIo) :
    (clientYield pool y io).1 = (pool.get y.url io.connects).2 ∧
      (clientYield pool y io).2.2 = [access pool y io] := by
  cases y with
  | wantsRead url =>
    simp only [clientYield, DiscoveryYield.url]
    rcases pool.get url io.connects with ⟨_ | stream, pool'⟩
    · exact ⟨rfl, rfl⟩
    · cases io.result <;> exact ⟨rfl, rfl⟩
  | wantsWrite url bytes =>
    simp only [clientYield, DiscoveryYield.url]
    rcases pool.get url io.connects with ⟨_ | stream, pool'⟩
    · exact ⟨rfl, rfl⟩
    · cases io.result <;> exact ⟨rfl, rfl⟩

section
variable {σ ρ : Type} (resume : σ → Option Bytes → Step DiscoveryYield σ ρ) (pool : DiscoveryStreamPool)
  (coroutine : σ) (script : List StreamIo)

def composeRun : Pumped DiscoveryStreamPool StreamIo Access ρ :=
  pump composeYield resume coroutine none pool script

def clientRun : Pumped DiscoveryStreamPool StreamIo Access (Except ClientError ρ) :=
  pump clientYield (orError resume) coroutine none pool script

theorem composeRun_eq_run :
    (composeRun resume pool coroutine script).result = (run resume pool coroutine script).result ∧
      (composeRun resume pool coroutine script).world = (run resume pool coroutine script).world := by
  have hsame : ∀ pool y io, (composeYield pool y io).1 = (runYield pool y io).1 ∧
      (composeYield pool y io).2.1 = (runYield pool y io).2.1 := fun _ _ _ => ⟨rfl, rfl⟩
  exact pump_unobserved hsame resume coroutine none pool script

end

inductive Accessed : DiscoveryStreamPool → List Access → DiscoveryStreamPool → Prop where
  | nil (pool : DiscoveryStreamPool) : Accessed pool [] pool
  | cons (pool : DiscoveryStreamPool) (y : DiscoveryYield) (io : StreamIo) {log : List Access}
      {pool' : DiscoveryStreamPool} (h : Accessed (pool.get y.url io.connects).2 log pool') :
      Accessed pool (access pool y io :: log) pool'

namespace Accessed
variable {pool pool' : DiscoveryStreamPool} {log : List Access}

theorem append {pool'' : DiscoveryStreamPool} {log' : List Access} (h : Accessed pool log pool')
    (h' : Accessed pool' log' pool'') : Accessed pool (log ++ log') pool'' := by
  induction h with
  | nil pool => exact h'
  | cons pool y io _ ih => exact .cons pool y io (ih h')

theorem pumped {I σ ρ : Type} {driver : Driver I DiscoveryYield DiscoveryStreamPool StreamIo Access}
    (hdriver : ∀ pool y io, (driver pool y io).1 = (pool.get y.url io.connects).2 ∧
      (driver pool y io).2.2 = [access pool y io])
    (resume : σ → Option I → Step DiscoveryYield σ ρ) (coroutine : σ) (arg : Option I)
    (pool : DiscoveryStreamPool) (script : List StreamIo) :
    Accessed pool (pump driver resume coroutine arg pool script).events
      (pump driver resume coroutine arg pool script).world := by
  refine pump_trace .nil (fun pool y io log pool' h => ?_) resume coroutine arg pool script
  obtain ⟨hpool, haccess⟩ := hdriver pool y io
  rw [hpool] at h
  rw [haccess]
  exact .cons pool y io h

theorem keeps (h : Accessed pool log pool') {key : StreamPoolKey} {stream : DiscoveryStream}
    (hstream : pool.streams.lookup key = some stream) :
    pool'.streams.lookup key = some stream ∧
      ∀ a ∈ log, a.key = some key → a.stream = some stream ∧ a.cached = true := by
  induction h with
  | nil pool => exact ⟨hstream, List.forall_mem_nil _⟩
  | cons pool y io _ ih =>
    have hgot := pool.get_got y.url io.connects
    obtain ⟨hkept, hrest⟩ := ih (hgot.keeps hstream)
    refine ⟨hkept, List.forall_mem_cons.mpr ⟨fun hkey => ?_, hrest⟩⟩
    refine ⟨hgot.handed_of_open hkey hstream, ?_⟩
    have hurl : StreamPoolKey.ofUrl y.url = some key := hkey
    simp only [access, hurl, Option.bind_some, hstream, Option.isSome_some]

theorem numbered (h : Accessed pool log pool') (hpool : pool.Numbered) : pool'.Numbered := by
  induction h with
  | nil pool => exact hpool
  | cons pool y io _ ih => exact ih ((pool.get_got y.url io.connects).numbered hpool)

theorem stored (h : Accessed pool log pool') {a : Access} (ha : a ∈ log) {stream : DiscoveryStream}
    (hstream : a.stream = some stream) :
    ∃ key, a.key = some key ∧ pool'.streams.lookup key = some stream := by
  induction h with
  | nil pool => cases ha
  | cons pool y io hrest ih =>
    rcases List.mem_cons.mp ha with rfl | ha
    · obtain ⟨key, hkey, hopen⟩ := (pool.get_got y.url io.connects).stored hstream
      exact ⟨key, hkey, (hrest.keeps hopen).1⟩
    · exact ih ha

theorem handed_of_died (h : Accessed pool log pool') {a : Access} (ha : a ∈ log)
    (hdied : a.died = true) : a.stream.isSome = true := by
  induction h with
  | nil pool => cases ha
  | cons pool y io _ ih =>
    rcases List.mem_cons.mp ha with rfl | ha
    · simp only [access, Bool.and_eq_true] at hdied
      exact hdied.1
    · exact ih ha

/-- After an access that was handed a stream, those of its key are handed the same one from the pool, and
no others are. -/
theorem handed_again (h : Accessed pool log pool') (hpool : pool.Numbered) :
    log.Pairwise fun a b => a.stream.isSome = true →
      (b.stream = a.stream ↔ b.key = a.key) ∧ (b.key = a.key → b.cached = true) := by
  induction h with
  | nil pool => exact .nil
  | @cons pool y io log pool' hrest ih =>
    have hgot := pool.get_got y.url io.connects
    have hafter := hgot.numbered hpool
    refine .cons (fun b hb hsome => ?_) (ih hafter)
    obtain ⟨stream, hstream⟩ := Option.isSome_iff_exists.mp hsome
    obtain ⟨key, hkey, hopen⟩ := hgot.stored hstream
    have hkeyof : (access pool y io).key = some key := hkey
    obtain ⟨hkept, hagain⟩ := hrest.keeps hopen
    rw [hstream, hkeyof]
    refine ⟨⟨fun hsame => ?_, fun hsame => (hagain b hb hsame).1⟩, fun hsame => (hagain b hb hsame).2⟩
    obtain ⟨key', hkey', hopen'⟩ := hrest.stored hb hsame
    rw [hkey', (hrest.numbered hafter).key_unique hopen' hkept]

end Accessed

/-- Runs of coroutines over one pool, one after the other, and what they access. -/
inductive Session : DiscoveryStreamPool → List Access → DiscoveryStreamPool → Prop where
  | nil (pool : DiscoveryStreamPool) : Session pool [] pool
  | composed {σ ρ : Type} (resume : σ → Option Bytes → Step DiscoveryYield σ ρ)
      (pool : DiscoveryStreamPool) (coroutine : σ) (script : List StreamIo) {log : List Access}
      {pool' : DiscoveryStreamPool}
      (h : Session (composeRun resume pool coroutine script).world log pool') :
      Session pool ((composeRun resume pool coroutine script).events ++ log) pool'
  | called {σ ρ : Type} (resume : σ → Option Bytes → Step DiscoveryYield σ ρ)
      (pool : DiscoveryStreamPool) (coroutine : σ) (script : List StreamIo) {log : List Access}
      {pool' : DiscoveryStreamPool}
      (h : Session (clientRun resume pool coroutine script).world log pool') :
      Session pool ((clientRun resume pool coroutine script).events ++ log) pool'

theorem Session.accessed {pool pool' : DiscoveryStreamPool} {log : List Access}
    (h : Session pool log pool') : Accessed pool log pool' := by
  induction h with
  | nil pool => exact .nil pool
  | composed resume pool coroutine script _ ih =>
    exact (Accessed.pumped composeYield_access resume coroutine none pool script).append ih
  | called resume pool coroutine script _ ih =>
    have hrun := Accessed.pumped clientYield_access (orError resume) coroutine none pool script
    exact hrun.append ih

/-- A pool is usable over a log: a stream that has died is not handed out again, and the next access of
its key goes to the factory, as on a fresh pool. -/
structure Usable (log : List Access) : Prop where
  retired : log.Pairwise fun a b => a.died = true → b.stream ≠ a.stream
  reopened : ∀ before a between b after, log = before ++ a :: (between ++ b :: after) →
    a.died = true → (∀ c ∈ between, c.key ≠ a.key) → b.key = a.key → b.cached = false

def Avoids (log : List Access) : Prop := log.Pairwise fun a b => a.died = true → b.key ≠ a.key

instance (log : List Access) : Decidable (Avoids log) := inferInstanceAs (Decidable (log.Pairwise _))

/-- The streams of a session that have died stay in the pool: none is handed out again exactly if no later
access is of the key of one, and the pool has forgotten them exactly if there is none. -/
theorem session_usable_iff {pool pool' : DiscoveryStreamPool} {log : List Access}
    (hpool : pool.Numbered) (h : Session pool log pool') :
    (Usable log ↔ Avoids log) ∧
    ((∀ a ∈ log, a.died = true → ∀ key, a.key = some key → pool'.streams.lookup key = none) ↔
      ∀ a ∈ log, a.died = false) := by
  have haccessed := h.accessed
  have hagain := haccessed.handed_again hpool
  refine ⟨⟨fun husable => ?_, fun havoids => ⟨?_, ?_⟩⟩, ?_⟩
  · apply (husable.retired.and hagain).imp_of_mem
    rintro a b ha _ ⟨hretired, hsame⟩ hdied hkey
    exact hretired hdied ((hsame (haccessed.handed_of_died ha hdied)).1.mpr hkey)
  · apply (havoids.and hagain).imp_of_mem
    rintro a b ha _ ⟨havoid, hsame⟩ hdied hstream
    exact havoid hdied ((hsame (haccessed.handed_of_died ha hdied)).1.mp hstream)
  · rintro before a between b after rfl hdied - hkey
    -- There is no such access.
    have hlater := (List.pairwise_append.mp havoids).2.1
    have hb : b ∈ between ++ b :: after := List.mem_append_right _ (List.mem_cons_self ..)
    exact absurd hkey ((List.pairwise_cons.mp hlater).1 b hb hdied)
  · constructor
    · intro hforgot a ha
      by_contra hdied
      rw [Bool.not_eq_false] at hdied
      obtain ⟨stream, hstream⟩ := Option.isSome_iff_exists.mp (haccessed.handed_of_died ha hdied)
      obtain ⟨key, hkey, hopen⟩ := haccessed.stored ha hstream
      rw [hforgot a ha hdied key hkey] at hopen
      cases hopen
    · intro hnone a ha hdied
      rw [hnone a ha] at hdied
      cases hdied

def closedScript : List StreamIo :=
  [{ connects := true, result := some [] }, { connects := true, result := some [] }]

def failedScript : List StreamIo := [{ connects := true, result := none }]

def resolverAccess (cached died : Bool) : Access where
  url := exampleResolver
  cached := cached
  stream := some { factory := "tcp", id := 0 }
  died := died

/-- After a lookup that found its resolver's stream closed, the next lookup is handed that stream, where a
fresh client opens one. -/
theorem closed_stream_handed_again :
    letI := plainUrl
    letI := plainDns
    letI := plainHttp
    let lookup := DiscoveryMailconf.new "example.org" exampleResolver
    let first := clientRun DiscoveryMailconf.resume .new lookup closedScript
    let second := clientRun DiscoveryMailconf.resume first.world lookup failedScript
    let fresh := clientRun DiscoveryMailconf.resume .new lookup failedScript
    Session .new (first.events ++ (second.events ++ [])) second.world ∧
    first.events = [resolverAccess false false, resolverAccess true true] ∧
    second.events = [resolverAccess true true] ∧ fresh.events = [resolverAccess false true] ∧
    ¬ Usable (first.events ++ (second.events ++ [])) := by
  let _ := plainUrl
  let _ := plainDns
  let _ := plainHttp
  have hfirst : (clientRun DiscoveryMailconf.resume .new
      (DiscoveryMailconf.new "example.org" exampleResolver) closedScript).events =
        [resolverAccess false false, resolverAccess true true] := by decide +kernel
  have hsecond : (clientRun DiscoveryMailconf.resume
      (clientRun DiscoveryMailconf.resume .new
        (DiscoveryMailconf.new "example.org" exampleResolver) closedScript).world
      (DiscoveryMailconf.new "example.org" exampleResolver) failedScript).events =
        [resolverAccess true true] := by decide +kernel
  refine ⟨.called _ _ _ _ (.called _ _ _ _ (.nil _)), hfirst, hsecond, by decide +kernel, fun h => ?_⟩
  have hretired := h.retired
  rw [hfirst, hsecond] at hretired
  have hlater := (List.pairwise_cons.mp (List.pairwise_cons.mp hretired).2).1
  exact hlater (resolverAccess true true) (List.mem_singleton_self _) rfl rfl

theorem fetch_after_closed_stream :
    letI := plainUrl
    letI := plainDns
    letI := plainHttp
    letI := plainSerde
    let pool := DiscoveryStreamPool.new.withHttpFactories
    let first := clientRun DiscoveryMailconf.resume pool
      (DiscoveryMailconf.new "example.org" exampleResolver) closedScript
    let second := clientRun DiscoveryIsp.resume first.world (DiscoveryIsp.new exampleOrigin) failedScript
    (∃ a ∈ first.events, a.died = true) ∧ second.events.length = 1 ∧
      Usable (first.events ++ (second.events ++ [])) := by
  let _ := plainUrl
  let _ := plainDns
  let _ := plainHttp
  let _ := plainSerde
  refine ⟨by decide +kernel, by decide +kernel, ?_⟩
  have hpool : DiscoveryStreamPool.new.withHttpFactories.Numbered := .of_streams_eq_nil rfl
  exact (session_usable_iff hpool (.called _ _ _ _ (.called _ _ _ _ (.nil _)))).1.mpr (by decide +kernel)

end PimDiscovery
