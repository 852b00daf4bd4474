import Mathlib.Data.List.Forall2
import Mathlib.Data.List.Induction
import SnowflakeSqlApi.Lib.Replay

/-!
# The log of a server

A client makes requests one after the other, and some of them are posts.  The server logs
posts in an order of its own: at any time it may log what it has been sent so far, and
it may go on after the last reply.  It logs no post twice, and no post and a replay of it
(`AtMostOnce`).

The requests come in blocks, each of which posts one thing, the first time plainly and then
as replays (`PostsOne`).  If each block ends with the knowledge that its post is logged, the
log is one entry of each block, in order (`upTo_confirmed`); of a last block whose fate is
open, there is one entry at most (`rest_of_last`).
-/

namespace SnowflakeSqlApi.Ledger

open Replay

/-- What a server logs: posts, by the number of their request, while request `t` is in flight, and
after the last reply. -/
structure Log where
  window : ℕ → List ℕ
  tail : List ℕ

namespace Log

variable (log : Log)

/-- What is logged from request `s` on, until the reply before request `e`. -/
def between (s e : ℕ) : List ℕ := (List.range' s (e - s)).flatMap log.window

def upTo (e : ℕ) : List ℕ := log.between 0 e

/-- The whole log of `n` requests. -/
def entries (n : ℕ) : List ℕ := log.upTo n ++ log.tail

variable {log}

theorem mem_between {s e c : ℕ} : c ∈ log.between s e ↔ ∃ t, s ≤ t ∧ t < e ∧ c ∈ log.window t := by
  simp only [between, List.mem_flatMap, List.mem_range'_1]
  constructor
  · rintro ⟨t, ⟨hs, he⟩, hc⟩
    exact ⟨t, hs, by omega, hc⟩
  · rintro ⟨t, hs, he, hc⟩
    exact ⟨t, ⟨hs, by omega⟩, hc⟩

theorem between_self (s : ℕ) : log.between s s = [] := by
  rw [between, Nat.sub_self]
  rfl

theorem between_append {s m e : ℕ} (hs : s ≤ m) (he : m ≤ e) :
    log.between s e = log.between s m ++ log.between m e := by
  have hrange : List.range' s (m - s) ++ List.range' (s + 1 * (m - s)) (e - m) =
      List.range' s (m - s + (e - m)) := List.range'_append
  rw [Nat.one_mul, Nat.add_sub_cancel' hs] at hrange
  rw [between, between, between, ← List.flatMap_append, hrange]
  congr 2
  omega

theorem upTo_append {m e : ℕ} (he : m ≤ e) : log.upTo e = log.upTo m ++ log.between m e :=
  between_append (Nat.zero_le m) he

end Log

section History

variable {X α : Type*}

/-- The post of request `c`, if it is one. -/
def posts (post : X → Option (Post α)) (history : List X) (c : ℕ) : Option (Post α) :=
  history[c]?.bind post

/-- Post `b` is a replay of post `a`: it has its identity, and the posts of that identity since then
are marked. -/
def Repeats (posts : ℕ → Option (Post α)) (a b : ℕ) : Prop :=
  a < b ∧ ∃ p q, posts a = some p ∧ posts b = some q ∧ p.id = q.id ∧
    ∀ c r, a < c → c ≤ b → posts c = some r → r.id = q.id → r.replay = true

/-- Two posts are one thing. -/
def Same (posts : ℕ → Option (Post α)) (a b : ℕ) : Prop :=
  a = b ∨ Repeats posts a b ∨ Repeats posts b a

theorem Same.symm {posts : ℕ → Option (Post α)} {a b : ℕ} (h : Same posts a b) : Same posts b a := by
  rcases h with h | h | h
  · exact .inl h.symm
  · exact .inr (.inr h)
  · exact .inr (.inl h)

/-- The log of `n` requests has only what was posted, and nothing twice. -/
structure AtMostOnce (posts : ℕ → Option (Post α)) (n : ℕ) (log : Log) : Prop where
  posted : ∀ t < n, ∀ c ∈ log.window t, c ≤ t ∧ (posts c).isSome
  postedTail : ∀ c ∈ log.tail, c < n ∧ (posts c).isSome
  once : (log.entries n).Pairwise fun a b => ¬ Same posts a b

/-- A block of requests posts one thing: plainly with its first request, and then as replays. -/
structure PostsOne (post : X → Option (Post α)) (block : List X) : Prop where
  first : ∀ x ∈ block, ∀ p, post x = some p →
    ∃ p₀, block.head?.bind post = some p₀ ∧ p₀.replay = false ∧ p.id = p₀.id
  later : ∀ x ∈ block.tail, ∀ p, post x = some p → p.replay = true

/-- The posts of the requests from `s` to `e` are logged before the reply to the last of them. -/
def Confirmed (posts : ℕ → Option (Post α)) (log : Log) (s e : ℕ) : Prop :=
  ∃ a, s ≤ a ∧ a < e ∧ (posts a).isSome ∧ ∃ c ∈ log.upTo e, Same posts a c

theorem Confirmed.mono {posts : ℕ → Option (Post α)} {log : Log} {s e e' : ℕ}
    (h : Confirmed posts log s e) (hle : e ≤ e') : Confirmed posts log s e' := by
  obtain ⟨a, hs, he, hposted, c, hc, hsame⟩ := h
  refine ⟨a, hs, by omega, hposted, c, ?_, hsame⟩
  rw [Log.upTo_append hle]
  exact List.mem_append_left _ hc

/-- What was posted before `s` has been logged before. -/
def Settled (posts : ℕ → Option (Post α)) (log : Log) (s : ℕ) : Prop :=
  ∀ a < s, (posts a).isSome → ∃ c ∈ log.upTo s, Same posts a c

variable {post : X → Option (Post α)} {pre block rest : List X}

theorem getElem?_block {i : ℕ} (hi : i < block.length) :
    (pre ++ (block ++ rest))[pre.length + i]? = block[i]? := by
  rw [List.getElem?_append_right (Nat.le_add_right _ _), Nat.add_sub_cancel_left,
    List.getElem?_append_left hi]

/-- A post within a block. -/
theorem exists_of_posts {c : ℕ} (hs : pre.length ≤ c) (he : c < pre.length + block.length)
    {p : Post α} (hp : posts post (pre ++ (block ++ rest)) c = some p) :
    ∃ i x, c = pre.length + i ∧ block[i]? = some x ∧ post x = some p := by
  obtain ⟨i, rfl⟩ := Nat.exists_eq_add_of_le hs
  rw [posts, getElem?_block (by omega), Option.bind_eq_some_iff] at hp
  obtain ⟨x, hx, hp⟩ := hp
  exact ⟨i, x, rfl, hx, hp⟩

namespace PostsOne

/-- The first post of a block has its place, its identity and no mark; the others are marked. -/
theorem posts_spec (h : PostsOne post block) {c : ℕ} (hs : pre.length ≤ c)
    (he : c < pre.length + block.length) {p : Post α}
    (hp : posts post (pre ++ (block ++ rest)) c = some p) :
    (∃ p₀, posts post (pre ++ (block ++ rest)) pre.length = some p₀ ∧ p₀.replay = false ∧
      p.id = p₀.id) ∧ (c ≠ pre.length → p.replay = true) := by
  obtain ⟨i, x, rfl, hx, hpost⟩ := exists_of_posts hs he hp
  obtain ⟨p₀, hhead, hplain, hid⟩ := h.first x (List.mem_of_getElem? hx) p hpost
  refine ⟨⟨p₀, ?_, hplain, hid⟩, fun hne => ?_⟩
  · have hzero : (pre ++ (block ++ rest))[pre.length + 0]? = block[0]? :=
      getElem?_block (by omega)
    rw [Nat.add_zero] at hzero
    rw [posts, hzero, ← List.head?_eq_getElem?]
    exact hhead
  · cases i with
    | zero => exact absurd (Nat.add_zero _) hne
    | succ i =>
      have htail : block.tail[i]? = some x := by rw [List.getElem?_tail, hx]
      exact h.later x (List.mem_of_getElem? htail) p hpost

/-- All posts of a block are one thing. -/
theorem same (h : PostsOne post block) {a b : ℕ} (ha : pre.length ≤ a)
    (ha' : a < pre.length + block.length) (hb : pre.length ≤ b)
    (hb' : b < pre.length + block.length)
    (hpa : (posts post (pre ++ (block ++ rest)) a).isSome)
    (hpb : (posts post (pre ++ (block ++ rest)) b).isSome) :
    Same (posts post (pre ++ (block ++ rest))) a b := by
  have hrepeats : ∀ {a b : ℕ}, a < b → pre.length ≤ a → b < pre.length + block.length →
      (posts post (pre ++ (block ++ rest)) a).isSome →
      (posts post (pre ++ (block ++ rest)) b).isSome →
      Repeats (posts post (pre ++ (block ++ rest))) a b := by
    intro a b hab ha hb hpa hpb
    obtain ⟨p, hp⟩ := Option.isSome_iff_exists.mp hpa
    obtain ⟨q, hq⟩ := Option.isSome_iff_exists.mp hpb
    obtain ⟨⟨p₀, hp₀, _, hid⟩, _⟩ := h.posts_spec ha (by omega) hp
    obtain ⟨⟨q₀, hq₀, _, hid'⟩, _⟩ := h.posts_spec (by omega) hb hq
    rw [hp₀] at hq₀
    cases hq₀
    refine ⟨hab, p, q, hp, hq, hid.trans hid'.symm, fun c r hac hcb hr _ => ?_⟩
    exact (h.posts_spec (by omega) (by omega) hr).2 (by omega)
  rcases Nat.lt_trichotomy a b with hlt | heq | hlt
  · exact .inr (.inl (hrepeats hlt ha hb' hpa hpb))
  · exact .inl heq
  · exact .inr (.inr (hrepeats hlt hb ha' hpb hpa))

/-- No post of a block is one with a post before it. -/
theorem not_same (h : PostsOne post block) {a b : ℕ} (ha : a < pre.length) (hb : pre.length ≤ b)
    (hb' : b < pre.length + block.length) : ¬ Same (posts post (pre ++ (block ++ rest))) a b := by
  rintro (hab | ⟨_, _, q, _, hq, _, hmarked⟩ | ⟨hab, _⟩)
  · omega
  · obtain ⟨⟨q₀, hq₀, hplain, hid⟩, _⟩ := h.posts_spec hb hb' hq
    have hreplay := hmarked _ q₀ ha hb hq₀ hid.symm
    rw [hplain] at hreplay
    cases hreplay
  · omega

/-- The first requests of a block, with others after them that post nothing. -/
theorem take_append {issued later : List X} (h : PostsOne post block) (hissued : issued <+: block)
    (hlater : ∀ x ∈ later, post x = none) : PostsOne post (issued ++ later) := by
  obtain ⟨left, rfl⟩ := hissued
  have hmem : ∀ {xs : List X} {x : X} {p : Post α}, x ∈ xs ++ later → post x = some p → x ∈ xs := by
    intro xs x p hx hp
    rcases List.mem_append.mp hx with hx | hx
    · exact hx
    · rw [hlater x hx] at hp
      cases hp
  cases issued with
  | nil =>
    refine ⟨fun x hx p hp => ?_, fun x hx p hp => ?_⟩
    · exact absurd (hmem hx hp) List.not_mem_nil
    · exact absurd (hmem (List.mem_of_mem_tail hx) hp) List.not_mem_nil
  | cons x₀ issued =>
    refine ⟨fun x hx p hp => ?_, fun x hx p hp => ?_⟩
    · exact h.first x (List.mem_append_left _ (hmem hx hp)) p hp
    · rw [List.cons_append, List.tail_cons] at hx
      exact h.later x (List.mem_append_left _ (hmem hx hp)) p hp

end PostsOne

/-! ### Blocks in a log -/

/-- A list of one thing that has nothing twice. -/
theorem eq_nil_or_singleton {β : Type*} {r : β → β → Prop} {l : List β}
    (honce : l.Pairwise fun a b => ¬ r a b) (hsame : ∀ a ∈ l, ∀ b ∈ l, r a b) :
    l = [] ∨ ∃ c, l = [c] := by
  match l, honce with
  | [], _ => exact .inl rfl
  | [c], _ => exact .inr ⟨c, rfl⟩
  | a :: b :: _, honce =>
    exact absurd (hsame a (by simp) b (by simp)) (List.rel_of_pairwise_cons honce (by simp))

variable {n : ℕ} {log : Log}

/-- What is logged from request `s` on is of the requests from `s` on. -/
def Passed (log : Log) (n s : ℕ) : Prop := ∀ c ∈ log.between s n ++ log.tail, s ≤ c

theorem passed_zero : Passed log n 0 := fun c _ => Nat.zero_le c

/-- What is logged was posted. -/
theorem posted_of_logged {posts : ℕ → Option (Post α)} (hlog : AtMostOnce posts n log) {s : ℕ} :
    ∀ c ∈ log.between s n ++ log.tail, (posts c).isSome := by
  intro c hc
  rcases List.mem_append.mp hc with hc | hc
  · obtain ⟨t, _, ht, hc⟩ := Log.mem_between.mp hc
    exact (hlog.posted t ht c hc).2
  · exact (hlog.postedTail c hc).2

/-- What is logged after everything before `s` is of the requests from `s` on. -/
theorem Settled.passed {posts : ℕ → Option (Post α)} (hlog : AtMostOnce posts n log) {s : ℕ}
    (hs : s ≤ n) (hsettled : Settled posts log s) : Passed log n s := by
  intro c hc
  by_contra hlt
  obtain ⟨c', hc', hsame⟩ := hsettled c (by omega) (posted_of_logged hlog c hc)
  have honce := hlog.once
  rw [Log.entries, Log.upTo_append hs, List.append_assoc] at honce
  exact (List.pairwise_append.mp honce).2.2 c' hc' c hc hsame.symm

namespace Passed

section Block

variable (hpassed : Passed log n pre.length)
  (hlog : AtMostOnce (posts post (pre ++ (block ++ rest))) n log)
  (hn : pre.length + block.length ≤ n)
include hpassed hlog hn

/-- What is logged while the requests of a block are in flight are posts of the block. -/
theorem within : ∀ c ∈ log.between pre.length (pre.length + block.length),
    pre.length ≤ c ∧ c < pre.length + block.length ∧
      (posts post (pre ++ (block ++ rest)) c).isSome := by
  intro c hc
  obtain ⟨t, hs, ht, hmem⟩ := Log.mem_between.mp hc
  have hlogged : c ∈ log.between pre.length n ++ log.tail :=
    List.mem_append_left _ (Log.mem_between.mpr ⟨t, hs, by omega, hmem⟩)
  have hto := (hlog.posted t (by omega) c hmem).1
  exact ⟨hpassed c hlogged, by omega, posted_of_logged hlog c hlogged⟩

/-- **A confirmed block** adds one entry, of one of its posts. -/
theorem confirmed (hone : PostsOne post block)
    (hconfirmed : Confirmed (posts post (pre ++ (block ++ rest))) log pre.length
      (pre.length + block.length)) :
    (∃ c, log.between pre.length (pre.length + block.length) = [c] ∧
      pre.length ≤ c ∧ c < pre.length + block.length ∧
      ∃ x ∈ block, (pre ++ (block ++ rest))[c]? = some x ∧ (post x).isSome) ∧
    Passed log n (pre.length + block.length) := by
  have hle : pre.length ≤ pre.length + block.length := Nat.le_add_right _ _
  have hwithin := hpassed.within hlog hn
  obtain ⟨a, ha, ha', hpa, c, hc, hsame⟩ := hconfirmed
  have hmem : c ∈ log.between pre.length (pre.length + block.length) := by
    rw [Log.upTo_append hle] at hc
    refine (List.mem_append.mp hc).resolve_left fun hearlier => ?_
    obtain ⟨t, _, ht, hc⟩ := Log.mem_between.mp hearlier
    have hto := (hlog.posted t (by omega) c hc).1
    exact hone.not_same (by omega) ha ha' hsame.symm
  have hall := hlog.once
  rw [Log.entries, Log.upTo_append hn, Log.upTo_append hle, List.append_assoc, List.append_assoc]
    at hall
  obtain ⟨honce, -, hafter⟩ := List.pairwise_append.mp (List.pairwise_append.mp hall).2.1
  have hsingle := eq_nil_or_singleton honce fun a ha b hb => hone.same (hwithin a ha).1
    (hwithin a ha).2.1 (hwithin b hb).1 (hwithin b hb).2.1 (hwithin a ha).2.2 (hwithin b hb).2.2
  obtain ⟨hs, he, hposted⟩ := hwithin c hmem
  refine ⟨?_, fun b hb => ?_⟩
  · obtain ⟨p, hp⟩ := Option.isSome_iff_exists.mp hposted
    obtain ⟨i, x, rfl, hx, hpost⟩ := exists_of_posts hs he hp
    rcases hsingle with hnil | ⟨c', hc'⟩
    · rw [hnil] at hmem
      cases hmem
    · rw [hc', List.mem_singleton] at hmem
      subst hmem
      refine ⟨_, hc', hs, he, x, List.mem_of_getElem? hx, ?_, by rw [hpost]; rfl⟩
      rw [getElem?_block (by omega), hx]
  · -- A later entry of the block would be one with the entry that confirms it.
    have hb' : b ∈ log.between pre.length n ++ log.tail := by
      rw [Log.between_append hle hn, List.append_assoc]
      exact List.mem_append_right _ hb
    by_contra hlt
    exact hafter c hmem b hb (hone.same hs he (hpassed b hb') (by omega) hposted
      (posted_of_logged hlog b hb))

/-- **A block that comes to nothing** adds no entry. -/
theorem void
    (hvoid : ∀ c ∈ log.entries n, ¬ (pre.length ≤ c ∧ c < pre.length + block.length)) :
    log.between pre.length (pre.length + block.length) = [] ∧
      Passed log n (pre.length + block.length) := by
  have hle : pre.length ≤ pre.length + block.length := Nat.le_add_right _ _
  have hentries : log.entries n = log.upTo pre.length ++
      (log.between pre.length (pre.length + block.length) ++
        (log.between (pre.length + block.length) n ++ log.tail)) := by
    rw [Log.entries, Log.upTo_append hn, Log.upTo_append hle, List.append_assoc, List.append_assoc]
  rw [hentries] at hvoid
  refine ⟨List.eq_nil_iff_forall_not_mem.mpr fun c hc => ?_, fun c hc => ?_⟩
  · obtain ⟨hs, he, -⟩ := hpassed.within hlog hn c hc
    exact hvoid c (List.mem_append_right _ (List.mem_append_left _ hc)) ⟨hs, he⟩
  · have hc' : c ∈ log.between pre.length n ++ log.tail := by
      rw [Log.between_append hle hn, List.append_assoc]
      exact List.mem_append_right _ hc
    by_contra hlt
    exact hvoid c (List.mem_append_right _ (List.mem_append_right _ hc))
      ⟨hpassed c hc', by omega⟩

end Block

/-- **A last block** adds one entry at most, of one of its posts. -/
theorem last (hpassed : Passed log (pre.length + block.length) pre.length)
    (hlog : AtMostOnce (posts post (pre ++ (block ++ rest))) (pre.length + block.length) log)
    (hone : PostsOne post block) :
    log.between pre.length (pre.length + block.length) ++ log.tail = [] ∨
      ∃ c, log.between pre.length (pre.length + block.length) ++ log.tail = [c] ∧
        pre.length ≤ c ∧ c < pre.length + block.length ∧
        ∃ x ∈ block, (pre ++ (block ++ rest))[c]? = some x ∧ (post x).isSome := by
  have hle : pre.length ≤ pre.length + block.length := Nat.le_add_right _ _
  have hwithin : ∀ c ∈ log.between pre.length (pre.length + block.length) ++ log.tail,
      pre.length ≤ c ∧ c < pre.length + block.length ∧
        (posts post (pre ++ (block ++ rest)) c).isSome := by
    intro c hc
    refine ⟨hpassed c hc, ?_, posted_of_logged hlog c hc⟩
    rcases List.mem_append.mp hc with hc | hc
    · obtain ⟨t, _, ht, hc⟩ := Log.mem_between.mp hc
      have hto := (hlog.posted t ht c hc).1
      omega
    · exact (hlog.postedTail c hc).1
  have honce := hlog.once
  rw [Log.entries, Log.upTo_append hle, List.append_assoc] at honce
  have hsingle := eq_nil_or_singleton (List.pairwise_append.mp honce).2.1 fun a ha b hb =>
    hone.same (hwithin a ha).1 (hwithin a ha).2.1 (hwithin b hb).1 (hwithin b hb).2.1
      (hwithin a ha).2.2 (hwithin b hb).2.2
  refine hsingle.imp_right ?_
  rintro ⟨c, hc⟩
  obtain ⟨hs, he, hposted⟩ := hwithin c (by rw [hc]; exact List.mem_singleton_self c)
  obtain ⟨p, hp⟩ := Option.isSome_iff_exists.mp hposted
  obtain ⟨i, x, rfl, hx, hpost⟩ := exists_of_posts hs he hp
  refine ⟨_, hc, hs, he, x, List.mem_of_getElem? hx, ?_, by rw [hpost]; rfl⟩
  rw [getElem?_block (by omega), hx]

/-- **Confirmed blocks are logged once each, in order**, after others. -/
theorem blocks {history last : List X} {blocks : List (List X)}
    (hpassed : Passed log n pre.length) (hhistory : history = pre ++ (blocks.flatten ++ last))
    (hlog : AtMostOnce (posts post history) n log)
    (hn : pre.length + blocks.flatten.length ≤ n) (hone : ∀ block ∈ blocks, PostsOne post block)
    (hconfirmed : ∀ first block rest, blocks = first ++ block :: rest →
      Confirmed (posts post history) log (pre.length + first.flatten.length)
        (pre.length + first.flatten.length + block.length)) :
    List.Forall₂ (fun c block => ∃ x ∈ block, history[c]? = some x ∧ (post x).isSome)
      (log.between pre.length (pre.length + blocks.flatten.length)) blocks ∧
    Passed log n (pre.length + blocks.flatten.length) := by
  induction blocks using List.reverseRecOn generalizing last with
  | nil =>
    rw [List.flatten_nil, List.length_nil, Nat.add_zero, Log.between_self]
    exact ⟨.nil, hpassed⟩
  | append_singleton blocks block ih =>
    have hflat : (blocks ++ [block]).flatten = blocks.flatten ++ block := by simp
    rw [hflat, List.length_append, ← Nat.add_assoc] at hn ⊢
    rw [hflat, List.append_assoc] at hhistory
    obtain ⟨hearlier, hpassed'⟩ := ih hhistory (by omega)
      (fun b hb => hone b (List.mem_append_left _ hb))
      fun first b rest hsplit => hconfirmed first b (rest ++ [block]) (by simp [hsplit])
    have hlast := hconfirmed blocks block [] rfl
    rw [← List.append_assoc] at hhistory
    subst hhistory
    rw [← List.length_append] at hn hpassed' hlast ⊢
    obtain ⟨⟨c, hc, -, -, hentry⟩, hpassed''⟩ :=
      hpassed'.confirmed hlog hn (hone block (by simp)) hlast
    refine ⟨?_, hpassed''⟩
    rw [Log.between_append (by rw [List.length_append]; omega) (Nat.le_add_right _ _), hc,
      List.length_append]
    exact List.rel_append hearlier (.cons hentry .nil)

end Passed

section Block

variable (hlog : AtMostOnce (posts post (pre ++ (block ++ rest))) n log)
  (hn : pre.length + block.length ≤ n)
  (hsettled : Settled (posts post (pre ++ (block ++ rest))) log pre.length)
  (hone : PostsOne post block)
include hlog hn hsettled hone

/-- A confirmed block is settled after it. -/
theorem between_confirmed
    (hconfirmed : Confirmed (posts post (pre ++ (block ++ rest))) log pre.length
      (pre.length + block.length)) :
    (∃ c, log.between pre.length (pre.length + block.length) = [c] ∧
      ∃ x ∈ block, (pre ++ (block ++ rest))[c]? = some x ∧ (post x).isSome) ∧
    Settled (posts post (pre ++ (block ++ rest))) log (pre.length + block.length) := by
  obtain ⟨⟨c, hc, hs, he, x, hx, hat, hpost⟩, -⟩ :=
    (hsettled.passed hlog (by omega)).confirmed hlog hn hone hconfirmed
  refine ⟨⟨c, hc, x, hx, hat, hpost⟩, fun b hb hpb => ?_⟩
  rw [Log.upTo_append (Nat.le_add_right _ _), hc]
  by_cases hlt : b < pre.length
  · obtain ⟨c', hc', hsame'⟩ := hsettled b hlt hpb
    exact ⟨c', List.mem_append_left _ hc', hsame'⟩
  · refine ⟨c, by simp, hone.same (by omega) hb hs he hpb ?_⟩
    rw [posts, hat]
    exact hpost

end Block

/-- What a last block adds, where what was before it is settled. -/
theorem rest_of_last
    (hlog : AtMostOnce (posts post (pre ++ (block ++ rest))) (pre.length + block.length) log)
    (hsettled : Settled (posts post (pre ++ (block ++ rest))) log pre.length)
    (hone : PostsOne post block) :
    log.between pre.length (pre.length + block.length) ++ log.tail = [] ∨
      ∃ c, log.between pre.length (pre.length + block.length) ++ log.tail = [c] ∧
        pre.length ≤ c ∧ c < pre.length + block.length ∧
        ∃ x ∈ block, (pre ++ (block ++ rest))[c]? = some x ∧ (post x).isSome :=
  (hsettled.passed hlog (Nat.le_add_right _ _)).last hlog hone

/-- **Confirmed blocks are logged once each, in order.** -/
theorem upTo_confirmed {history last : List X} {blocks : List (List X)}
    (hhistory : history = blocks.flatten ++ last) (hlog : AtMostOnce (posts post history) n log)
    (hn : blocks.flatten.length ≤ n) (hone : ∀ block ∈ blocks, PostsOne post block)
    (hconfirmed : ∀ pre block rest, blocks = pre ++ block :: rest →
      Confirmed (posts post history) log pre.flatten.length (pre.flatten.length + block.length)) :
    List.Forall₂ (fun c block => ∃ x ∈ block, history[c]? = some x ∧ (post x).isSome)
      (log.upTo blocks.flatten.length) blocks ∧
    Settled (posts post history) log blocks.flatten.length := by
  induction blocks using List.reverseRecOn generalizing last with
  | nil =>
    rw [List.flatten_nil, List.length_nil, Log.upTo, Log.between_self]
    exact ⟨.nil, fun a ha => absurd ha (Nat.not_lt_zero a)⟩
  | append_singleton blocks block ih =>
    have hflat : (blocks ++ [block]).flatten = blocks.flatten ++ block := by simp
    rw [hflat, List.length_append] at hn ⊢
    rw [hflat, List.append_assoc] at hhistory
    obtain ⟨hearlier, hsettled⟩ := ih hhistory (by omega)
      (fun b hb => hone b (List.mem_append_left _ hb))
      fun pre b rest hsplit => hconfirmed pre b (rest ++ [block]) (by simp [hsplit])
    have hlast := hconfirmed blocks block [] rfl
    subst hhistory
    obtain ⟨⟨c, hc, hentry⟩, hsettled'⟩ := between_confirmed hlog hn hsettled
      (hone block (by simp)) hlast
    refine ⟨?_, hsettled'⟩
    rw [Log.upTo_append (Nat.le_add_right _ _), hc]
    exact List.rel_append hearlier (.cons hentry .nil)

end History

end SnowflakeSqlApi.Ledger
