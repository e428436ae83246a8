import Systemstat.Collections.GroupFold
import Systemstat.Trace.Resources
import Systemstat.Unix.Networks
import Systemstat.Windows.Netmask
import Systemstat.Windows.Strings

/-! # Network interfaces on Windows

The list of adapters is asked for with a buffer that may be too small, and then again
with one of twice the size that the call names. The buffer of a round is given back
before the next one is taken, and the last one when the list has been read; only the
doubling comes before that, and where it is a panic it leaves the buffer behind.
-/

namespace Systemstat.Windows

open Nom Text Bytes Collections Trace

/-! ## Addresses -/

/-- Every machine that Windows runs on stores the low octet first. -/
def target : Unix.Target := ⟨.little, 2, 23, by decide⟩

def parseAddrAndNetmask (aptr : Option Unix.SockAddr) (netBits : BitVec 8) : NetworkAddrs :=
  match aptr with
  | none => ⟨.empty, .empty⟩
  | some addr =>
      if addr.saFamily = target.afInet then
        { addr := .v4 (.new (addr.saData 2) (addr.saData 3) (addr.saData 4) (addr.saData 5))
          netmask := if netBits.toNat ≤ 32 then .v4 (netmaskV4 netBits) else .empty }
      else if addr.saFamily = target.afInet6 then
        let a : Vector (BitVec 8) (2 * 8) := addr.s6Addr.reverse
        let a := words target.byteOrder a
        { addr := .v6 (.new (a.get 7) (a.get 6) (a.get 5) (a.get 4) (a.get 3) (a.get 2)
             (a.get 1) (a.get 0))
          netmask := if netBits.toNat ≤ 128 then .v6 (netmaskV6 netBits) else .empty }
      else ⟨.empty, .empty⟩

/-! ## The list of adapters -/

structure UnicastAddress where
  lpSockaddr : Option Unix.SockAddr
  onLinkPrefixLength : BitVec 8

structure AdapterAddresses where
  adapterName : Bytes
  firstUnicastAddress : List UnicastAddress
  friendlyName : Option Units

namespace AdapterAddresses

def name (adapter : AdapterAddresses) : Str := cCharArrayToString adapter.adapterName

def network (adapter : AdapterAddresses) : Network where
  name := u16ArrayToString adapter.friendlyName
  addrs := adapter.firstUnicastAddress.map fun addr =>
    parseAddrAndNetmask addr.lpSockaddr addr.onLinkPrefixLength

end AdapterAddresses

/-- The key is the name of the adapter, not the one that is in the object. -/
def adaptersLoop : List AdapterAddresses → Unix.NetworkMap → Unix.NetworkMap
  | [], map => map
  | curPAdapter :: next, map => adaptersLoop next (map.insert curPAdapter.name curPAdapter.network)

/-! ## The call and its retries -/

inductive AdaptersReply
  | success (adapters : List AdapterAddresses)
  | bufferOverflow (newSize : BitVec 32)
  | failure (lastOsError : Int)

/-- What `malloc` and `GetAdaptersAddresses` answer, by the round and the size asked for. -/
structure AdapterCalls where
  malloc : Nat → BitVec 32 → Bool
  getAdaptersAddresses : Nat → BitVec 32 → AdaptersReply

/-- `panicked` is a `malloc` that fails, and `overflowed` a size that cannot be doubled. -/
inductive Ended (α : Type)
  | returned (result : IoResult α)
  | panicked
  | overflowed

def workingBufferSizel : BitVec 32 := 15000

/-- The loop, which gives back every buffer but the one that is filled; that one is named
by its round. `checked` is a build that panics at an overflow, and `none` a run that has not
ended within the fuel. -/
def retryLoop (checked : Bool) (calls : AdapterCalls) :
    Nat → Nat → BitVec 32 → Option (List (Event Nat) × Ended (Nat × List AdapterAddresses))
  | 0, _, _ => none
  | fuel + 1, round, newSize =>
      if calls.malloc round newSize then
        match calls.getAdaptersAddresses round newSize with
        | .success adapters =>
            some ([.acquire round, .use round], .returned (.ok (round, adapters)))
        | .bufferOverflow newSize =>
            -- the size is doubled first, and then the buffer is given back
            if checked && newSize.umulOverflow 2 then
              some ([.acquire round, .use round], .overflowed)
            else
              (retryLoop checked calls fuel (round + 1) (newSize * 2)).map fun run =>
                ([.acquire round, .use round, .release round] ++ run.1, run.2)
        | .failure code =>
            some ([.acquire round, .use round, .release round], .returned (.error (.os code)))
      else some ([], .panicked)

/-- The walk looks into the buffer at every adapter. -/
def get (checked : Bool) (calls : AdapterCalls) (fuel : Nat) :
    Option (List (Event Nat) × Ended Unix.NetworkMap) :=
  (retryLoop checked calls fuel 0 workingBufferSizel).map fun run =>
    match run.2 with
    | .panicked => (run.1, .panicked)
    | .overflowed => (run.1, .overflowed)
    | .returned (.error e) => (run.1, .returned (.error e))
    | .returned (.ok (pAdapter, adapters)) =>
        (run.1 ++ (List.replicate adapters.length (.use pAdapter) ++ [.release pAdapter]),
          .returned (.ok (adaptersLoop adapters ∅)))

variable {checked : Bool} {calls : AdapterCalls} {fuel round : Nat} {newSize : BitVec 32}

/-! ## The buffers -/

inductive Reached (calls : AdapterCalls) : Nat → BitVec 32 → Prop
  | first : Reached calls 0 workingBufferSizel
  | retry {round : Nat} {size newSize : BitVec 32} : Reached calls round size →
      calls.malloc round size = true →
      calls.getAdaptersAddresses round size = .bufferOverflow newSize →
      Reached calls (round + 1) (newSize * 2)

inductive EndsHolding (checked : Bool) (calls : AdapterCalls) (events : List (Event Nat)) :
    Ended (Nat × List AdapterAddresses) → Prop
  | filled {pAdapter : Nat} {size : BitVec 32} {adapters : List AdapterAddresses} :
      Reached calls pAdapter size →
      calls.getAdaptersAddresses pAdapter size = .success adapters →
      holds [] events = some [pAdapter] →
      EndsHolding checked calls events (.returned (.ok (pAdapter, adapters)))
  | failed {e : IoError} : Clean events → EndsHolding checked calls events (.returned (.error e))
  | panicked : Clean events → EndsHolding checked calls events .panicked
  | overflowed {round : Nat} {size newSize : BitVec 32} : checked = true →
      Reached calls round size →
      calls.getAdaptersAddresses round size = .bufferOverflow newSize →
      2 ^ 31 ≤ newSize.toNat → holds [] events = some [round] →
      EndsHolding checked calls events .overflowed

/-- A round that has given its buffer back leaves no trace. -/
theorem EndsHolding.after_round {events : List (Event Nat)}
    {ended : Ended (Nat × List AdapterAddresses)} (h : EndsHolding checked calls events ended)
    (round : Nat) :
    EndsHolding checked calls ([.acquire round, .use round, .release round] ++ events) ended := by
  have hround : Clean [Event.acquire round, .use round, .release round] := clean_bracket round 1
  have hholds : holds [] ([.acquire round, .use round, .release round] ++ events) =
      holds [] events := by
    rw [holds_append, hround]
    rfl
  cases h with
  | filled hreached hreply hheld => exact .filled hreached hreply (hholds.trans hheld)
  | failed hclean => exact .failed (hholds.trans hclean)
  | panicked hclean => exact .panicked (hholds.trans hclean)
  | overflowed hchecked hreached hreply hlarge hheld =>
      exact .overflowed hchecked hreached hreply hlarge (hholds.trans hheld)

theorem umulOverflow_two_iff {size : BitVec 32} :
    size.umulOverflow 2 = true ↔ 2 ^ 31 ≤ size.toNat := by
  rw [BitVec.umulOverflow, decide_eq_true_iff]
  show 2 ^ 32 ≤ size.toNat * 2 ↔ 2 ^ 31 ≤ size.toNat
  omega

theorem retryLoop_endsHolding {events : List (Event Nat)}
    {ended : Ended (Nat × List AdapterAddresses)} (hreached : Reached calls round newSize)
    (h : retryLoop checked calls fuel round newSize = some (events, ended)) :
    EndsHolding checked calls events ended := by
  induction fuel generalizing round newSize events ended with
  | zero => cases h
  | succ fuel ih =>
      rw [retryLoop] at h
      split at h
      · next hmalloc =>
        have hheld : holds [] [Event.acquire round, .use round] = some [round] := by
          simp [holds, holdStep]
        cases hreply : calls.getAdaptersAddresses round newSize with
        | success adapters =>
            rw [hreply] at h
            cases h
            exact .filled hreached hreply hheld
        | bufferOverflow required =>
            simp only [hreply] at h
            split at h
            · next hover =>
              cases h
              rw [Bool.and_eq_true] at hover
              exact .overflowed hover.1 hreached hreply (umulOverflow_two_iff.mp hover.2) hheld
            · obtain ⟨run, hrun, heq⟩ := Option.map_eq_some_iff.mp h
              cases heq
              exact (ih (hreached.retry hmalloc hreply) hrun).after_round round
        | failure code =>
            rw [hreply] at h
            cases h
            exact .failed (clean_bracket round 1)
      · cases h
        exact .panicked clean_nil

/-- A run gives every buffer back once, unless the doubling of a size is a panic: then it
holds exactly the buffer of that round. -/
structure Released (checked : Bool) (calls : AdapterCalls)
    (run : List (Event Nat) × Ended Unix.NetworkMap) : Prop where
  clean : run.2 ≠ .overflowed → Clean run.1
  leaks : run.2 = .overflowed → checked = true ∧ ∃ round size newSize,
    Reached calls round size ∧
      calls.getAdaptersAddresses round size = .bufferOverflow newSize ∧
      2 ^ 31 ≤ newSize.toNat ∧ holds [] run.1 = some [round]

/-- Every buffer is freed once, however the calls answer, and none is touched before
it is there or after it is freed; only the panic of a doubling leaves one behind. -/
theorem get_clean (checked : Bool) (calls : AdapterCalls) (fuel : Nat) :
    ∀ run, get checked calls fuel = some run → Released checked calls run := by
  intro run h
  obtain ⟨⟨events, ended⟩, hloop, heq⟩ := Option.map_eq_some_iff.mp h
  have hends := retryLoop_endsHolding .first hloop
  cases hends with
  | panicked hclean =>
      subst heq
      exact ⟨fun _ => hclean, fun h => by cases h⟩
  | failed hclean =>
      subst heq
      exact ⟨fun _ => hclean, fun h => by cases h⟩
  | overflowed hchecked hreached hreply hlarge hheld =>
      subst heq
      exact ⟨fun h => absurd rfl h, fun _ => ⟨hchecked, _, _, _, hreached, hreply, hlarge, hheld⟩⟩
  | @filled pAdapter size adapters _ _ hheld =>
      subst heq
      refine ⟨fun _ => ?_, fun h => by cases h⟩
      have huses : holds [pAdapter] (List.replicate adapters.length (.use pAdapter)) =
          some [pAdapter] := holds_uses List.mem_cons_self _
      show holds [] (events ++ _) = some []
      rw [holds_append, hheld]
      show holds [pAdapter] (_ ++ _) = some []
      rw [holds_append, huses]
      simp [holds, holdStep]

/-- A call that finds its buffer too small until it has this many bytes. -/
def callsNeeding (need : BitVec 32) (adapters : List AdapterAddresses) : AdapterCalls where
  malloc _ _ := true
  getAdaptersAddresses _ size := if size < need then .bufferOverflow need else .success adapters

theorem get_callsNeeding (checked : Bool) (adapters : List AdapterAddresses) :
    get checked (callsNeeding 20000 adapters) 2 = some
      ([.acquire 0, .use 0, .release 0] ++ [.acquire 1, .use 1] ++
          (List.replicate adapters.length (.use 1) ++ [.release 1]),
        .returned (.ok (adaptersLoop adapters ∅))) := by
  cases checked <;> rfl

theorem get_callsNeeding_overflow :
    get true (callsNeeding 2147483648 []) 1 = some ([.acquire 0, .use 0], .overflowed) := rfl

theorem get_clean_retry :
    (∃ run, get true (callsNeeding 20000 []) 2 = some run ∧ Clean run.1) ∧
      ∃ run, get true (callsNeeding 2147483648 []) 1 = some run ∧
        ∃ round, holds [] run.1 = some [round] := by
  refine ⟨⟨_, get_callsNeeding true [], ?_⟩, ⟨_, get_callsNeeding_overflow, ?_⟩⟩
  · exact (get_clean true (callsNeeding 20000 []) 2 _ (get_callsNeeding true [])).clean
      fun h => by cases h
  · obtain ⟨_, round, _, _, _, _, _, hheld⟩ :=
      (get_clean true (callsNeeding 2147483648 []) 1 _ get_callsNeeding_overflow).leaks rfl
    exact ⟨round, hheld⟩

/-! ## The end of the retries -/

def doublingOverflows (calls : AdapterCalls) : Nat → Nat → BitVec 32 → Bool
  | 0, _, _ => false
  | fuel + 1, round, newSize =>
      match calls.getAdaptersAddresses round newSize with
      | .bufferOverflow newSize =>
          newSize.umulOverflow 2 || doublingOverflows calls fuel (round + 1) (newSize * 2)
      | _ => false

/-- What the calls are documented to do: a buffer of `need` bytes is never too small, and
a call that finds its buffer too small names a size up to `need`, and none below the one
that it was given. -/
structure Answers (calls : AdapterCalls) (need : Nat) : Prop where
  allocates : ∀ round size, calls.malloc round size = true
  names : ∀ round size newSize, calls.getAdaptersAddresses round size = .bufferOverflow newSize →
    size.toNat < need ∧ size.toNat ≤ newSize.toNat ∧ newSize.toNat ≤ need

theorem toNat_double {size : BitVec 32} (h : size.toNat < 2 ^ 31) :
    (size * 2).toNat = size.toNat * 2 := by
  rw [BitVec.toNat_mul]
  exact Nat.mod_eq_of_lt (by show size.toNat * 2 < 2 ^ 32; omega)

theorem umulOverflow_two_eq_false {size : BitVec 32} (h : size.toNat < 2 ^ 31) :
    size.umulOverflow 2 = false := by
  rw [Bool.eq_false_iff, ne_eq, umulOverflow_two_iff]
  omega

/-- Some call failed, and not for the size of its buffer. -/
def SomeFailure (calls : AdapterCalls) : Prop :=
  ∃ round size code, calls.getAdaptersAddresses round size = .failure code

/-- Each retry has at least twice the size, so the rounds are as many as it takes to
double the first size up to what is needed. -/
theorem retryLoop_ends {need : Nat} (hcalls : Answers calls need) (hneed : need < 2 ^ 31)
    (checked : Bool) (rounds round : Nat) (newSize : BitVec 32)
    (henough : need ≤ newSize.toNat * 2 ^ rounds) :
    ∃ events result,
      retryLoop checked calls (rounds + 1) round newSize = some (events, .returned result) ∧
        ∀ e, result = .error e → SomeFailure calls := by
  induction rounds generalizing round newSize with
  | zero =>
      rw [Nat.pow_zero, Nat.mul_one] at henough
      rw [retryLoop, if_pos (hcalls.allocates round newSize)]
      cases hreply : calls.getAdaptersAddresses round newSize with
      | success adapters => exact ⟨_, _, rfl, fun e he => by cases he⟩
      | failure code => exact ⟨_, _, rfl, fun _ _ => ⟨round, newSize, code, hreply⟩⟩
      | bufferOverflow required =>
          have hnames := hcalls.names round newSize required hreply
          omega
  | succ rounds ih =>
      rw [retryLoop, if_pos (hcalls.allocates round newSize)]
      cases hreply : calls.getAdaptersAddresses round newSize with
      | success adapters => exact ⟨_, _, rfl, fun e he => by cases he⟩
      | failure code => exact ⟨_, _, rfl, fun _ _ => ⟨round, newSize, code, hreply⟩⟩
      | bufferOverflow required =>
          have hnames := hcalls.names round newSize required hreply
          have hgrow : newSize.toNat * 2 ^ (rounds + 1) ≤ required.toNat * 2 ^ (rounds + 1) :=
            Nat.mul_le_mul_right _ hnames.2.1
          have hmore : need ≤ (required * 2).toNat * 2 ^ rounds := by
            rw [toNat_double (by omega), Nat.mul_assoc, ← Nat.pow_succ']
            exact henough.trans hgrow
          have hfits : required.umulOverflow 2 = false := umulOverflow_two_eq_false (by omega)
          obtain ⟨events, result, hrun, hresult⟩ := ih (round + 1) (required * 2) hmore
          simp only [hfits, Bool.and_false, Bool.false_eq_true, if_false, hrun, Option.map_some]
          exact ⟨_, _, rfl, hresult⟩

theorem doublingOverflows_eq_false {need : Nat} (hcalls : Answers calls need)
    (hneed : need < 2 ^ 31) (fuel round : Nat) (newSize : BitVec 32) :
    doublingOverflows calls fuel round newSize = false := by
  induction fuel generalizing round newSize with
  | zero => rfl
  | succ fuel ih =>
      rw [doublingOverflows]
      cases hreply : calls.getAdaptersAddresses round newSize with
      | success adapters => rfl
      | failure code => rfl
      | bufferOverflow required =>
          have hnames := hcalls.names round newSize required hreply
          have hfits : required.umulOverflow 2 = false := umulOverflow_two_eq_false (by omega)
          simp only [hfits, ih, Bool.or_self]

theorem get_of_retryLoop {events : List (Event Nat)}
    {result : IoResult (Nat × List AdapterAddresses)}
    (h : retryLoop checked calls fuel 0 workingBufferSizel = some (events, .returned result)) :
    ∃ events', get checked calls fuel =
      some (events', .returned (result.map fun filled => adaptersLoop filled.2 ∅)) := by
  rw [get, h]
  cases result with
  | error e => exact ⟨_, rfl⟩
  | ok filled => exact ⟨_, rfl⟩

/-- The call returns within the rounds it takes to double the first size up to what is
needed, without an overflow. -/
theorem get_returns {need : Nat} (hcalls : Answers calls need) (hneed : need < 2 ^ 31)
    (checked : Bool) :
    (∀ rounds, need ≤ 15000 * 2 ^ rounds →
      ∃ events result, get checked calls (rounds + 1) = some (events, .returned result)) ∧
    ∀ fuel, doublingOverflows calls fuel 0 workingBufferSizel = false := by
  constructor
  · intro rounds henough
    obtain ⟨events, result, hrun, _⟩ :=
      retryLoop_ends hcalls hneed checked rounds 0 workingBufferSizel henough
    obtain ⟨events', hget⟩ := get_of_retryLoop hrun
    exact ⟨events', _, hget⟩
  · intro fuel
    exact doublingOverflows_eq_false hcalls hneed fuel 0 workingBufferSizel

theorem callsNeeding_answers (need : BitVec 32) (adapters : List AdapterAddresses) :
    Answers (callsNeeding need adapters) need.toNat where
  allocates _ _ := rfl
  names _ size newSize h := by
    simp only [callsNeeding] at h
    by_cases hlt : size < need
    · rw [if_pos hlt, AdaptersReply.bufferOverflow.injEq] at h
      subst h
      rw [BitVec.lt_def] at hlt
      exact ⟨hlt, by omega, Nat.le_refl _⟩
    · rw [if_neg hlt] at h
      cases h

theorem get_returns_large :
    (∀ rounds, 1000000 ≤ 15000 * 2 ^ rounds →
      ∃ events result, get true (callsNeeding 1000000 []) (rounds + 1) =
        some (events, .returned result)) ∧
    ∀ fuel, doublingOverflows (callsNeeding 1000000 []) fuel 0 workingBufferSizel = false :=
  get_returns (callsNeeding_answers 1000000 []) (by decide) true

/-! ## What is reported -/

/-- The address is reported octet by octet, with the mask of a length that its family
has; an address that is missing or of another family is reported as an empty one. -/
structure AddrReported (u : UnicastAddress) (reported : NetworkAddrs) : Prop where
  v4 : ∀ addr, u.lpSockaddr = some addr → addr.saFamily = target.afInet →
    reported.addr = .v4 ⟨Vector.ofFn fun i : Fin 4 => addr.saData (2 + i.val)⟩ ∧
    if u.onLinkPrefixLength.toNat ≤ 32 then
      ∃ mask, reported.netmask = .v4 ⟨mask⟩ ∧ IsPrefixMask mask u.onLinkPrefixLength.toNat
    else reported.netmask = .empty
  v6 : ∀ addr, u.lpSockaddr = some addr → addr.saFamily = target.afInet6 →
    reported.addr = .v6 ⟨addr.s6Addr⟩ ∧
    if u.onLinkPrefixLength.toNat ≤ 128 then
      ∃ mask, reported.netmask = .v6 ⟨mask⟩ ∧ IsPrefixMask mask u.onLinkPrefixLength.toNat
    else reported.netmask = .empty
  unsupported : (∀ addr, u.lpSockaddr = some addr →
      addr.saFamily ≠ target.afInet ∧ addr.saFamily ≠ target.afInet6) →
    reported = ⟨.empty, .empty⟩

/-- On Windows the words of an IPv6 address come out as they are. -/
theorem parseAddr_v6_octets {addr : Unix.SockAddr} (h : addr.saFamily = target.afInet6) :
    Unix.parseAddr target (some addr) = .v6 ⟨addr.s6Addr⟩ :=
  Unix.parseAddr_reported target h

theorem parseAddrAndNetmask_reported (u : UnicastAddress) :
    AddrReported u (parseAddrAndNetmask u.lpSockaddr u.onLinkPrefixLength) := by
  constructor
  · intro addr hsome hinet
    simp only [hsome, parseAddrAndNetmask, if_pos hinet]
    refine ⟨rfl, ?_⟩
    by_cases hlen : u.onLinkPrefixLength.toNat ≤ 32
    · rw [if_pos hlen, if_pos hlen]
      exact ⟨_, rfl, netmaskV4_isPrefixMask _⟩
    · rw [if_neg hlen, if_neg hlen]
  · intro addr hsome hinet6
    have hinet : addr.saFamily ≠ target.afInet := by
      rw [hinet6]
      exact target.afInet_ne.symm
    have hoctets := parseAddr_v6_octets hinet6
    simp only [Unix.parseAddr, if_neg hinet, if_pos hinet6] at hoctets
    simp only [hsome, parseAddrAndNetmask, if_neg hinet, if_pos hinet6]
    refine ⟨hoctets, ?_⟩
    by_cases hlen : u.onLinkPrefixLength.toNat ≤ 128
    · rw [if_pos hlen, if_pos hlen]
      exact ⟨_, rfl, netmaskV6_isPrefixMask _⟩
    · rw [if_neg hlen, if_neg hlen]
  · intro hother
    cases haddr : u.lpSockaddr with
    | none => rfl
    | some addr =>
        obtain ⟨hinet, hinet6⟩ := hother addr haddr
        simp only [parseAddrAndNetmask, if_neg hinet, if_neg hinet6]

/-- Each name has the last adapter of that name, under its friendly name and with all of
its addresses in order. -/
structure AdaptersReported (adapters : List AdapterAddresses) (map : Unix.NetworkMap) : Prop where
  keys : ∀ name, name ∈ map ↔ name ∈ adapters.map AdapterAddresses.name
  entry : ∀ pre adapter post, adapters = pre ++ adapter :: post →
    adapter.name ∉ post.map AdapterAddresses.name →
    ∃ network, map[adapter.name]? = some network ∧
      network.name = u16ArrayToString adapter.friendlyName ∧
      List.Forall₂ AddrReported adapter.firstUnicastAddress network.addrs

theorem adaptersLoop_eq (adapters : List AdapterAddresses) (map : Unix.NetworkMap) :
    adaptersLoop adapters map =
      adapters.foldl (fun map adapter => map.insert adapter.name adapter.network) map := by
  induction adapters generalizing map with
  | nil => rfl
  | cons adapter adapters ih =>
      rw [adaptersLoop, ih]
      rfl

theorem getElem?_adaptersLoop (adapters : List AdapterAddresses) (name : Str) :
    (adaptersLoop adapters ∅)[name]? =
      (withKey AdapterAddresses.name name adapters).getLast?.map AdapterAddresses.network := by
  rw [adaptersLoop_eq, getElem?_foldl_insert AdapterAddresses.name AdapterAddresses.network]
  simp

/-- The last adapter of a name is the one that stays. -/
theorem getElem?_adaptersLoop_last {pre post : List AdapterAddresses} {adapter : AdapterAddresses}
    (hlast : adapter.name ∉ post.map AdapterAddresses.name) :
    (adaptersLoop (pre ++ adapter :: post) ∅)[adapter.name]? = some adapter.network := by
  have hpost : withKey AdapterAddresses.name adapter.name post = [] := by
    simpa [withKey, List.filter_eq_nil_iff] using hlast
  have hkeyed : withKey AdapterAddresses.name adapter.name (pre ++ adapter :: post) =
      withKey AdapterAddresses.name adapter.name pre ++ [adapter] := by
    rw [withKey, List.filter_append, List.filter_cons_of_pos (by simp)]
    exact congrArg (withKey AdapterAddresses.name adapter.name pre ++ adapter :: ·) hpost
  rw [getElem?_adaptersLoop, hkeyed, List.getLast?_concat, Option.map_some]

theorem mem_adaptersLoop (adapters : List AdapterAddresses) (name : Str) :
    name ∈ adaptersLoop adapters ∅ ↔ name ∈ adapters.map AdapterAddresses.name := by
  rw [Std.TreeMap.mem_iff_isSome_getElem?, getElem?_adaptersLoop, Option.isSome_map,
    List.getLast?_isSome, withKey, ne_eq, List.filter_eq_nil_iff]
  simp

theorem adaptersLoop_reported (adapters : List AdapterAddresses) :
    AdaptersReported adapters (adaptersLoop adapters ∅) where
  keys := mem_adaptersLoop adapters
  entry pre adapter post hsplit hlast := by
    refine ⟨adapter.network, ?_, rfl, ?_⟩
    · rw [hsplit]
      exact getElem?_adaptersLoop_last hlast
    · rw [AdapterAddresses.network, List.forall₂_map_right_iff, List.forall₂_same]
      exact fun u _ => parseAddrAndNetmask_reported u

theorem get_adapters {events : List (Event Nat)} {map : Unix.NetworkMap}
    (h : get checked calls fuel = some (events, .returned (.ok map))) : ∃ round size adapters,
      Reached calls round size ∧ calls.getAdaptersAddresses round size = .success adapters ∧
        map = adaptersLoop adapters ∅ := by
  obtain ⟨⟨loopEvents, ended⟩, hloop, heq⟩ := Option.map_eq_some_iff.mp h
  have hends := retryLoop_endsHolding .first hloop
  cases hends with
  | panicked _ => cases heq
  | overflowed _ _ _ _ _ => cases heq
  | failed _ => cases heq
  | filled hreached hreply _ =>
      cases heq
      exact ⟨_, _, _, hreached, hreply, rfl⟩

/-- A map that is returned is made of the adapters of the round that the run has come to. -/
theorem get_reported {events : List (Event Nat)} {map : Unix.NetworkMap}
    (h : get checked calls fuel = some (events, .returned (.ok map))) : ∃ round size adapters,
      Reached calls round size ∧ calls.getAdaptersAddresses round size = .success adapters ∧
        AdaptersReported adapters map := by
  obtain ⟨round, size, adapters, hreached, hreply, rfl⟩ := get_adapters h
  exact ⟨round, size, adapters, hreached, hreply, adaptersLoop_reported adapters⟩

def ipv4SockAddr (a b c d : BitVec 8) : Unix.SockAddr :=
  ⟨2, fun i => match i with | 2 => a | 3 => b | 4 => c | 5 => d | _ => 0⟩

def loopbackAdapter : AdapterAddresses where
  adapterName := utf8 ['l', 'o', Char.ofNat 0]
  firstUnicastAddress := [⟨some (ipv4SockAddr 127 0 0 1), 8⟩]
  friendlyName := some (utf16 ['l', 'o'] ++ [0#16])

/-- An adapter with an address of a length that is no prefix, one that is missing, and an
IPv6 address. -/
def ethernetAdapter : AdapterAddresses where
  adapterName := utf8 ['e', 't', 'h', Char.ofNat 0]
  firstUnicastAddress :=
    [⟨some (ipv4SockAddr 10 0 0 2), 33⟩, ⟨none, 8⟩, ⟨some (Unix.loopback 23), 128⟩]
  friendlyName := some (utf16 ['L', 'A', 'N'] ++ [0#16])

theorem get_reported_two :
    ∃ events map, get true (callsNeeding 20000 [loopbackAdapter, ethernetAdapter]) 2 =
        some (events, .returned (.ok map)) ∧
      ∃ round size adapters, Reached (callsNeeding 20000 [loopbackAdapter, ethernetAdapter])
          round size ∧
        (callsNeeding 20000 [loopbackAdapter, ethernetAdapter]).getAdaptersAddresses round size =
          .success adapters ∧ AdaptersReported adapters map :=
  ⟨_, _, get_callsNeeding true _, get_reported (get_callsNeeding true _)⟩

end Systemstat.Windows
