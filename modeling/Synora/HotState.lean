import Synora.Lib.Expiring
import Synora.Schema

/- The Redis hot state of an auction: its keys, the commands on them as go-redis
   sends them, and the Lua script of `evalBid` (handlers.go).

   Redis counts milliseconds. A script runs atomically under one clock value, so
   the price and the leader it writes share a deadline. -/
namespace Synora

open Expiring

/-! ## Keys -/

def priceKey (id : String) : String := "auction:" ++ id ++ ":price"
def leaderKey (id : String) : String := "auction:" ++ id ++ ":leader"
def statusKey (id : String) : String := "auction:" ++ id ++ ":status"
def updatesChannel (id : String) : String := "auction:" ++ id ++ ":updates"

theorem key_injective {a b : String} (suffix : String)
    (h : "auction:" ++ a ++ suffix = "auction:" ++ b ++ suffix) : a = b := by
  have := congrArg String.toList h
  simp only [String.toList_append, List.append_assoc, List.append_cancel_left_eq,
    List.append_cancel_right_eq] at this
  exact String.toList_injective this

theorem priceKey_injective : Function.Injective priceKey := fun _ _ h => key_injective _ h
theorem leaderKey_injective : Function.Injective leaderKey := fun _ _ h => key_injective _ h
theorem statusKey_injective : Function.Injective statusKey := fun _ _ h => key_injective _ h
theorem updatesChannel_injective : Function.Injective updatesChannel := fun _ _ h => key_injective _ h

theorem key_last_ne {a b suffix suffix' : String}
    (hne : suffix.toList.getLast? ≠ suffix'.toList.getLast?)
    (hs : suffix.toList ≠ []) (hs' : suffix'.toList ≠ []) :
    "auction:" ++ a ++ suffix ≠ "auction:" ++ b ++ suffix' := by
  intro h
  have := congrArg (fun s => s.toList.getLast?) h
  simp only [String.toList_append, List.getLast?_append_of_ne_nil _ hs,
    List.getLast?_append_of_ne_nil _ hs'] at this
  exact hne this

@[simp] theorem leaderKey_ne_priceKey (a b : String) : leaderKey a ≠ priceKey b :=
  key_last_ne (by decide) (by decide) (by decide)
@[simp] theorem statusKey_ne_priceKey (a b : String) : statusKey a ≠ priceKey b :=
  key_last_ne (by decide) (by decide) (by decide)
@[simp] theorem statusKey_ne_leaderKey (a b : String) : statusKey a ≠ leaderKey b :=
  key_last_ne (by decide) (by decide) (by decide)
@[simp] theorem priceKey_ne_leaderKey (a b : String) : priceKey a ≠ leaderKey b :=
  (leaderKey_ne_priceKey b a).symm
@[simp] theorem priceKey_ne_statusKey (a b : String) : priceKey a ≠ statusKey b :=
  (statusKey_ne_priceKey b a).symm
@[simp] theorem leaderKey_ne_statusKey (a b : String) : leaderKey a ≠ statusKey b :=
  (statusKey_ne_leaderKey b a).symm

/-! ## Durations -/

def millisecond : Int := 1000000
def second : Int := 1000000000
def hour : Int := 3600 * second

/-- `t.Sub(u)`: nanoseconds, saturating at the range of a Go duration. -/
def durationSub (t u : Int) : Int := max (-2^63) (min (2^63 - 1) (t - u))

/-- The expiry of a SET: none, the one the key has, or a number of milliseconds. -/
inductive Ttl where
  | none
  | keep
  | ms (n : Int)
  deriving DecidableEq, Repr

/-- What go-redis sends for an expiration: PX or EX if it is positive (never less than a
millisecond), KEEPTTL for -1ns, and no expiry for zero or any other negative value. -/
def redisTtl (expiration : Int) : Ttl :=
  if 0 < expiration then
    if expiration < second ∨ expiration % second ≠ 0 then .ms (max 1 (expiration / millisecond))
    else .ms (1000 * (expiration / second))
  else if expiration = -1 then .keep
  else .none

/-! ## Commands -/

/-- A Redis database. -/
abbrev Redis : Type := Store String String

/-- SET. -/
def Redis.set (r : Redis) (now : Int) (key value : String) : Ttl → Redis
  | .none => r.put key ⟨value, Option.none⟩
  | .keep => r.put key ⟨value, (r.entry now key).bind Entry.deadline⟩
  | .ms n => r.put key ⟨value, some (now + n)⟩

theorem Redis.entry_set_ne (r : Redis) (now t : Int) {key l : String} (value : String) (ttl : Ttl)
    (h : l ≠ key) : (r.set now key value ttl).entry t l = r.entry t l := by
  cases ttl <;> exact Store.entry_put_ne r t _ h

/-- What a SET leaves under its key is the value, or nothing once it has expired. -/
theorem Redis.get_set_self {r : Redis} {now t : Int} {key value v : String} {ttl : Ttl}
    (h : (r.set now key value ttl).get t key = some v) : v = value := by
  obtain ⟨e, he, hv⟩ := Store.get_eq_some.mp h
  cases ttl <;>
  · simp only [Redis.set, Store.entry_put_self] at he
    split at he
    · simp only [Option.some.injEq] at he
      rw [← hv, ← he]
    · cases he

/-- Right after a SET with an expiration go-redis sends, the value is there. -/
theorem Redis.get_set_now (r : Redis) (now : Int) (key value : String) (expiration : Int) :
    (r.set now key value (redisTtl expiration)).get now key = some value := by
  have hput : ∀ e : Entry String, e.value = value → e.live now = true →
      (r.put key e).get now key = some value := by
    intro e hv hlive
    rw [Store.get, Store.entry_put_self, if_pos hlive, Option.map_some, hv]
  have hms : ∀ n : Int, 0 ≤ n → Entry.live (⟨value, some (now + n)⟩ : Entry String) now = true :=
    fun n hn => decide_eq_true (by omega)
  unfold redisTtl
  split
  · split
    · exact hput _ rfl (hms _ (by omega))
    · exact hput _ rfl (hms _ (by unfold second; omega))
  · split
    · refine hput _ rfl ?_
      cases he : r.entry now key with
      | none => rfl
      | some e => exact (Store.entry_eq_some.mp he).2
    · exact hput _ rfl rfl

/-! ## The script of `evalBid` -/

inductive ScriptResult where
  /-- `{-1, "CLOSED"}`: the status key is not `ACTIVE`. -/
  | closed
  /-- `{0, p}`: the stored price is at least the amount. -/
  | tooLow (p : String)
  /-- `{1, amount}`, with the price and leader keys written. -/
  | accepted (r : Redis)
  /-- The script raised an error before it wrote anything. -/
  | error

/-- Price and leader, written with one deadline. -/
def writeLead (r : Redis) (now : Int) (id amount user : String) (ttlSeconds : Int) : Redis :=
  (r.put (priceKey id) ⟨amount, some (now + 1000 * ttlSeconds)⟩).put (leaderKey id)
    ⟨user, some (now + 1000 * ttlSeconds)⟩

/-- The script body. A comparison with a text that is no number is a Lua error, and so is
an expiry that is not positive. -/
def bidScript (E : Engines) (r : Redis) (now : Int) (id amount user : String) (ttlSeconds : Int) :
    ScriptResult :=
  if r.get now (statusKey id) ≠ some "ACTIVE" then .closed
  else
    match r.get now (priceKey id) with
    | none => if 0 < ttlSeconds then .accepted (writeLead r now id amount user ttlSeconds) else .error
    | some p =>
      match E.tonumber amount, E.tonumber p with
      | some a, some q =>
        if a.le q then .tooLow p
        else if 0 < ttlSeconds then .accepted (writeLead r now id amount user ttlSeconds)
        else .error
      | _, _ => .error

/-- What an accepting script found, and what it wrote. -/
theorem bidScript_accepted {E : Engines} {r r' : Redis} {now ttl : Int} {id amount user : String}
    (h : bidScript E r now id amount user ttl = .accepted r') :
    r.get now (statusKey id) = some "ACTIVE" ∧ r' = writeLead r now id amount user ttl ∧ 0 < ttl ∧
      ∀ p, r.get now (priceKey id) = some p →
        ∃ a q, E.tonumber amount = some a ∧ E.tonumber p = some q ∧ a.le q = false := by
  unfold bidScript at h
  split at h
  · cases h
  · rename_i hs
    refine ⟨Classical.not_not.mp hs, ?_⟩
    split at h
    · rename_i hp
      split at h
      · rename_i ht
        cases h
        refine ⟨rfl, ht, fun p hp' => ?_⟩
        rw [hp] at hp'
        cases hp'
      · cases h
    · rename_i p hp
      split at h
      · rename_i a q ha hq
        split at h
        · cases h
        · rename_i hle
          split at h
          · rename_i ht
            cases h
            refine ⟨rfl, ht, fun p' hp' => ?_⟩
            rw [hp] at hp'
            cases hp'
            exact ⟨a, q, ha, hq, by simpa using hle⟩
          · cases h
      · cases h

theorem entry_writeLead_price (r : Redis) (now t : Int) (id amount user : String) (ttl : Int) :
    (writeLead r now id amount user ttl).entry t (priceKey id) =
      if t ≤ now + 1000 * ttl then some ⟨amount, some (now + 1000 * ttl)⟩ else none := by
  unfold writeLead
  rw [Store.entry_put_ne _ _ _ (priceKey_ne_leaderKey id id), Store.entry_put_self]
  simp [Entry.live]

theorem entry_writeLead_leader (r : Redis) (now t : Int) (id amount user : String) (ttl : Int) :
    (writeLead r now id amount user ttl).entry t (leaderKey id) =
      if t ≤ now + 1000 * ttl then some ⟨user, some (now + 1000 * ttl)⟩ else none := by
  unfold writeLead
  rw [Store.entry_put_self]
  simp [Entry.live]

/-- The script writes the two keys of its own auction only. -/
theorem entry_writeLead_ne (r : Redis) (now t : Int) (id amount user : String) (ttl : Int) {k : String}
    (hp : k ≠ priceKey id) (hl : k ≠ leaderKey id) :
    (writeLead r now id amount user ttl).entry t k = r.entry t k := by
  unfold writeLead
  rw [Store.entry_put_ne _ _ _ hl, Store.entry_put_ne _ _ _ hp]

end Synora
