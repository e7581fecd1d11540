import Mathlib.Data.List.Induction
import Mathlib.Data.List.Sort
import Mathlib.Data.Prod.Lex
import Highlighting.Proofs.Strides

/-!
# Which rule comes first

A language is made by adding rules and constructs to it, one after the other.  The order in which
they are added matters only where nothing else decides:

    rules of a language           the rules added, in the stable order of descending priority
    token at or after a place     of all that match, the least by the start of the match, then
                                  constructs before rules, then rules of higher priority before
                                  those of lower, then what was added earlier     (added_in_order)

So two ways of adding make languages that scan alike, if the constructs are the same in the same
order, and so are the rules of each priority.
-/

namespace Highlighting

open Text (Cursor)

/-! ## Stable orders -/

/-- The list holds what another one holds, by rank, and in the order of the other one where ranks
are equal. -/
structure StablyOrdered {α β : Type} [LinearOrder β] (rank : α → β) (as xs : List α) : Prop where
  sorted : xs.Pairwise (rank · ≤ rank ·)
  alike : ∀ p, xs.filter (rank · = p) = as.filter (rank · = p)

namespace StablyOrdered

variable {α β : Type} [LinearOrder β] {rank : α → β} {as bs xs ys : List α} {a : α}

theorem mem_iff (h : StablyOrdered rank as xs) : a ∈ xs ↔ a ∈ as := by
  have hmem := congrArg (a ∈ ·) (h.alike (rank a))
  simpa using hmem

theorem alike_tail {x : α} (h : ∀ p, (x :: xs).filter (rank · = p) = (x :: ys).filter (rank · = p))
    (p : β) : xs.filter (rank · = p) = ys.filter (rank · = p) := by
  have hp := h p
  rw [List.filter_cons, List.filter_cons] at hp
  split at hp
  · exact (List.cons.inj hp).2
  · exact hp

/-- Two sorted lists are the same if they hold the same of each rank. -/
theorem eq_of_alike (hxs : xs.Pairwise (rank · ≤ rank ·)) (hys : ys.Pairwise (rank · ≤ rank ·))
    (h : ∀ p, xs.filter (rank · = p) = ys.filter (rank · = p)) : xs = ys := by
  induction xs generalizing ys with
  | nil =>
    cases ys with
    | nil => rfl
    | cons y ys => simpa using h (rank y)
  | cons x xs ih =>
    cases ys with
    | nil => simpa using h (rank x)
    | cons y ys =>
      have hmem (z : α) : z ∈ x :: xs ↔ z ∈ y :: ys := by
        simpa using congrArg (z ∈ ·) (h (rank z))
      have hle : rank x ≤ rank y := by
        rcases List.mem_cons.1 ((hmem y).2 (.head _)) with heq | htail
        · rw [heq]
        · exact List.rel_of_pairwise_cons hxs htail
      have hge : rank y ≤ rank x := by
        rcases List.mem_cons.1 ((hmem x).1 (.head _)) with heq | htail
        · rw [heq]
        · exact List.rel_of_pairwise_cons hys htail
      have hfirst := h (rank x)
      rw [List.filter_cons_of_pos (by simp),
        List.filter_cons_of_pos (by simpa using le_antisymm hge hle)] at hfirst
      obtain rfl := (List.cons.inj hfirst).1
      rw [ih hxs.of_cons hys.of_cons (alike_tail h)]

/-- There is one such list for all that hold the same of each rank. -/
theorem unique (hx : StablyOrdered rank as xs) (hy : StablyOrdered rank bs ys)
    (h : ∀ p, as.filter (rank · = p) = bs.filter (rank · = p)) : xs = ys :=
  eq_of_alike hx.sorted hy.sorted fun p => by rw [hx.alike, h, hy.alike]

theorem sorted_orderedInsert (h : xs.Pairwise (rank · ≤ rank ·)) :
    (xs.orderedInsert (rank · < rank ·) a).Pairwise (rank · ≤ rank ·) := by
  induction xs with
  | nil => simp
  | cons b bs ih =>
    have hb : ∀ x ∈ bs, rank b ≤ rank x := fun x hx => List.rel_of_pairwise_cons h hx
    rw [List.orderedInsert_cons]
    split
    · next hlt =>
      exact List.pairwise_cons.2
        ⟨List.forall_mem_cons.2 ⟨hlt.le, fun x hx => hlt.le.trans (hb x hx)⟩, h⟩
    · next hle =>
      refine List.pairwise_cons.2 ⟨fun x hx => ?_, ih h.of_cons⟩
      rcases (List.mem_orderedInsert _).1 hx with rfl | hx
      · exact le_of_not_gt hle
      · exact hb x hx

/-- What is inserted comes behind all that have its rank. -/
theorem filter_orderedInsert (h : xs.Pairwise (rank · ≤ rank ·)) (p : β) :
    (xs.orderedInsert (rank · < rank ·) a).filter (rank · = p) =
      xs.filter (rank · = p) ++ [a].filter (rank · = p) := by
  induction xs with
  | nil => rfl
  | cons b bs ih =>
    rw [List.orderedInsert_cons]
    split
    · next hlt =>
      by_cases ha : rank a = p
      · have hnone : (b :: bs).filter (rank · = p) = [] := by
          refine List.filter_eq_nil_iff.2 fun x hx => ?_
          have hbx : rank b ≤ rank x := by
            rcases List.mem_cons.1 hx with rfl | hx
            · exact le_refl _
            · exact List.rel_of_pairwise_cons h hx
          simpa using (ha ▸ hlt.trans_le hbx).ne'
        rw [List.filter_cons, hnone, List.filter_cons]
        simp [ha]
      · simp [ha]
    · rw [List.filter_cons, List.filter_cons, ih h.of_cons]
      split <;> rfl

/-- What is added last comes behind all that do not have a higher rank. -/
theorem snoc (h : StablyOrdered rank as xs) (a : α) :
    StablyOrdered rank (as ++ [a]) (xs.orderedInsert (rank · < rank ·) a) where
  sorted := sorted_orderedInsert h.sorted
  alike p := by rw [filter_orderedInsert h.sorted, h.alike, List.filter_append]

theorem mergeSort (rank : α → β) (as : List α) :
    StablyOrdered rank as (as.mergeSort fun a b => decide (rank a ≤ rank b)) := by
  have htrans (a b c : α) (hab : decide (rank a ≤ rank b) = true)
      (hbc : decide (rank b ≤ rank c) = true) : decide (rank a ≤ rank c) = true := by
    rw [decide_eq_true_eq] at *
    exact hab.trans hbc
  have htotal (a b : α) : (decide (rank a ≤ rank b) || decide (rank b ≤ rank a)) = true := by
    simpa using le_total (rank a) (rank b)
  refine ⟨?_, fun p => ?_⟩
  · simpa using List.pairwise_mergeSort htrans htotal as
  · -- What has one rank is sorted as it is.
    have hsorted : (as.filter (rank · = p)).Pairwise fun a b => decide (rank a ≤ rank b) = true := by
      refine List.pairwise_of_forall_mem_list fun a ha b hb => ?_
      simp only [List.mem_filter, decide_eq_true_eq] at ha hb ⊢
      rw [ha.2, hb.2]
    have hsublist := (List.sublist_mergeSort htrans htotal hsorted List.filter_sublist).filter
      (rank · = p)
    simp only [List.filter_filter, Bool.and_self] at hsublist
    exact (hsublist.eq_of_length ((List.mergeSort_perm as _).filter _).length_eq.symm).symm

/-- What comes before the first of something comes before any of it. -/
theorem prefix_of_notMem {front back earlier later : List α}
    (h : front ++ a :: back = earlier ++ a :: later) (ha : a ∉ earlier) : earlier <+: front := by
  rcases List.append_eq_append_iff.1 h with ⟨c, rfl, hc⟩ | ⟨c, rfl, -⟩
  · cases c with
    | nil => simp
    | cons d c =>
      obtain rfl := (List.cons.inj hc).1
      simp at ha
  · exact List.prefix_append _ _

/-- Of one rank, a stable order has in front all that was listed earlier. -/
theorem mem_front {front back earlier later : List α} {b : α}
    (h : StablyOrdered rank (earlier ++ a :: later) (front ++ a :: back)) (ha : a ∉ earlier)
    (hb : b ∈ earlier) (hrank : rank b = rank a) : b ∈ front := by
  have halike := h.alike (rank a)
  rw [List.filter_append, List.filter_append, List.filter_cons_of_pos (by simp),
    List.filter_cons_of_pos (by simp)] at halike
  have hpre := prefix_of_notMem halike fun hmem => ha (List.mem_of_mem_filter hmem)
  have hearly : b ∈ earlier.filter (rank · = rank a) :=
    List.mem_filter.2 ⟨hb, by simpa using hrank⟩
  exact List.mem_of_mem_filter (hpre.subset hearly)

/-- Among the earliest matches, the one that a stable order has in front comes first by the start of
the match, the rank, and the place in the list that is ordered. -/
theorem first_of_split {front back : List α} (h : StablyOrdered rank as (front ++ a :: back))
    {find : α → Option Match} {m : Match} (hm : find a = some m)
    (hfront : ∀ b ∈ front, ∀ n, find b = some n → m.start.offset < n.start.offset)
    (hback : ∀ b ∈ back, ∀ n, find b = some n → m.start.offset ≤ n.start.offset) :
    ∃ i : Nat, as[i]? = some a ∧ ∀ (j : Nat) b n, as[j]? = some b → find b = some n →
      toLex (m.start.offset, toLex (rank a, i)) ≤ toLex (n.start.offset, toLex (rank b, j)) := by
  obtain ⟨earlier, later, rfl, hearlier⟩ :=
    List.eq_append_cons_of_mem (h.mem_iff.1 (List.mem_append_right front (.head back)))
  refine ⟨earlier.length, by simp, fun j b n hb hn => ?_⟩
  rw [Prod.Lex.toLex_le_toLex, Prod.Lex.toLex_le_toLex]
  rcases List.mem_append.1 (h.mem_iff.2 (List.mem_of_getElem? hb)) with hmem | hmem
  · exact .inl (hfront b hmem n hn)
  have hle : m.start.offset ≤ n.start.offset ∧ rank a ≤ rank b := by
    rcases List.mem_cons.1 hmem with rfl | hmem
    · obtain rfl := Option.some.inj (hm.symm.trans hn)
      exact ⟨le_refl _, le_refl _⟩
    · exact ⟨hback b hmem n hn,
        List.rel_of_pairwise_cons (List.pairwise_append.1 h.sorted).2.1 hmem⟩
  rcases hle.1.lt_or_eq with hlt | hstart
  · exact .inl hlt
  rcases hle.2.lt_or_eq with hlt | hrank
  · exact .inr ⟨hstart, .inl hlt⟩
  refine .inr ⟨hstart, .inr ⟨hrank, Nat.le_of_not_lt fun hj => ?_⟩⟩
  rw [List.getElem?_append_left hj] at hb
  have hlt := hfront b (h.mem_front hearlier (List.mem_of_getElem? hb) hrank.symm) n hn
  omega

end StablyOrdered

/-! ## Adding rules and constructs -/

namespace Origin

/-- What is found at or after a place. -/
def find (c : Cursor) : Origin → Option Match
  | rule r => r.find c
  | construct k => k.findStart c

/-- The token that a match is. -/
def token (m : Match) : Origin → Language.Token
  | rule r => .rule r m
  | construct k => .construct k m

def rule? : Origin → Option TokenRule
  | rule r => some r
  | construct _ => none

def construct? : Origin → Option Construct
  | rule _ => none
  | construct k => some k

/-- Constructs come before rules, and rules of higher priority before those of lower. -/
def rank : Origin → ℕ ×ₗ ℤ
  | rule r => toLex (1, -r.priority)
  | construct _ => toLex (0, 0)

end Origin

namespace Language

/-- The language with a rule or a construct added. -/
def add (l : Language) : Origin → Language
  | .rule r => l.addRule r
  | .construct k => l.addConstruct k

/-- The language that is made by adding rules and constructs in order. -/
def made (name : String) (as : List Origin) : Language :=
  as.foldl add (named name)

/-- All rules and constructs, in the order in which they are preferred. -/
def listed (l : Language) : List Origin :=
  l.constructs.map .construct ++ l.rules.map .rule

/-- Of what is added the token is that which begins first; of those the one of the first rank; and
of those the one that was added first.  There is none when nothing that is added is found. -/
def Preferred (as : List Origin) (c : Cursor) : Option Token → Prop
  | none => ∀ a ∈ as, a.find c = none
  | some token => ∃ (i : Nat) (a : Origin) (m : Match),
      as[i]? = some a ∧ a.find c = some m ∧ token = a.token m ∧
      ∀ (j : Nat) (b : Origin) (n : Match), as[j]? = some b → b.find c = some n →
        toLex (m.start.offset, toLex (a.rank, i)) ≤ toLex (n.start.offset, toLex (b.rank, j))

variable (l : Language) (name : String) (as : List Origin) (c : Cursor)

theorem insertRule_eq (r : TokenRule) (rs : List TokenRule) :
    insertRule r rs = rs.orderedInsert (fun a b => -a.priority < -b.priority) r := by
  induction rs with
  | nil => rfl
  | cons a rs ih => simp only [insertRule, List.orderedInsert_cons, Int.neg_lt_neg_iff, ih]

@[simp] theorem made_concat (a : Origin) : made name (as ++ [a]) = (made name as).add a :=
  List.foldl_concat add (named name) a as

theorem stablyOrdered_rules :
    StablyOrdered (fun r => -r.priority) (as.filterMap Origin.rule?) (made name as).rules := by
  induction as using List.reverseRecOn with
  | nil => exact ⟨.nil, fun _ => rfl⟩
  | append_singleton as a ih =>
    rw [made_concat, List.filterMap_append]
    cases a with
    | rule r =>
      rw [add, addRule, insertRule_eq]
      exact ih.snoc r
    | construct k => simpa [add, addConstruct, Origin.rule?, List.filterMap_cons] using ih

theorem constructs_made : (made name as).constructs = as.filterMap Origin.construct? := by
  induction as using List.reverseRecOn with
  | nil => rfl
  | append_singleton as a ih =>
    rw [made_concat, List.filterMap_append, ← ih]
    cases a <;> simp [add, addRule, addConstruct, Origin.construct?]

theorem plain_made : (made name as).plain = false := by
  induction as using List.reverseRecOn with
  | nil => rfl
  | append_singleton as a ih =>
    rw [made_concat]
    cases a <;> exact ih

/-- What does not come before some that are listed first is inserted behind them. -/
theorem orderedInsert_append {a : Origin} {front : List Origin} (back : List Origin)
    (h : ∀ b ∈ front, ¬a.rank < b.rank) :
    (front ++ back).orderedInsert (Origin.rank · < Origin.rank ·) a =
      front ++ back.orderedInsert (Origin.rank · < Origin.rank ·) a := by
  induction front with
  | nil => rfl
  | cons b front ih =>
    rw [List.forall_mem_cons] at h
    rw [List.cons_append, List.orderedInsert_cons, if_neg h.1, ih h.2, List.cons_append]

theorem listed_add (a : Origin) :
    (l.add a).listed = l.listed.orderedInsert (Origin.rank · < Origin.rank ·) a := by
  have hconstructs : ∀ b ∈ l.constructs.map Origin.construct, ¬a.rank < b.rank := by
    intro b hb
    obtain ⟨k, -, rfl⟩ := List.mem_map.1 hb
    cases a <;> simp [Origin.rank, Prod.Lex.toLex_lt_toLex]
  rw [listed, listed, orderedInsert_append _ hconstructs]
  cases a with
  | rule r =>
    rw [add, addRule, insertRule_eq, List.map_orderedInsert _ (Origin.rank · < Origin.rank ·)]
    · simp [Origin.rank, Prod.Lex.toLex_lt_toLex]
    · simp [Origin.rank, Prod.Lex.toLex_lt_toLex]
  | construct k =>
    rw [add, addConstruct, List.map_append, List.append_assoc]
    cases hrules : l.rules with
    | nil => simp
    | cons r rs => simp [Origin.rank, Prod.Lex.toLex_lt_toLex]

/-- The next token is among the earliest matches the one that is listed in front. -/
theorem nextToken_split {l : Language} {c : Cursor} {token : Token}
    (h : l.nextToken c = some token) : ∃ front a m back, l.listed = front ++ a :: back ∧
      a.find c = some m ∧ token = a.token m ∧
      (∀ b ∈ front, ∀ n, b.find c = some n → m.start.offset < n.start.offset) ∧
      ∀ b ∈ back, ∀ n, b.find c = some n → m.start.offset ≤ n.start.offset := by
  cases token with
  | construct k m =>
    obtain ⟨hk, hrules⟩ := earliest_of_nextToken_construct h
    obtain ⟨front, back, hsplit, hm, hfront⟩ := earliest_split hk
    refine ⟨front.map .construct, .construct k, m, back.map .construct ++ l.rules.map .rule,
      by simp [listed, hsplit], hm, rfl, List.forall_mem_map.2 hfront, fun b hb => ?_⟩
    rcases List.mem_append.1 hb with hb | hb
    · obtain ⟨k', hk', rfl⟩ := List.mem_map.1 hb
      exact fun n hn => earliest_le hk (by simp [hsplit, hk']) hn
    · obtain ⟨r, hr, rfl⟩ := List.mem_map.1 hb
      exact hrules r hr
  | rule r m =>
    obtain ⟨hr, hconstructs⟩ := earliest_of_nextToken_rule h
    obtain ⟨front, back, hsplit, hm, hfront⟩ := earliest_split hr
    refine ⟨l.constructs.map .construct ++ front.map .rule, .rule r, m, back.map .rule,
      by simp [listed, hsplit], hm, rfl, fun b hb => ?_, fun b hb => ?_⟩
    · rcases List.mem_append.1 hb with hb | hb
      · obtain ⟨k, hk, rfl⟩ := List.mem_map.1 hb
        exact hconstructs k hk
      · obtain ⟨r', hr', rfl⟩ := List.mem_map.1 hb
        exact hfront r' hr'
    · obtain ⟨r', hr', rfl⟩ := List.mem_map.1 hb
      exact fun n hn => earliest_le hr (by simp [hsplit, hr']) hn

theorem stablyOrdered_listed : StablyOrdered Origin.rank as (made name as).listed := by
  induction as using List.reverseRecOn with
  | nil => exact ⟨.nil, fun _ => rfl⟩
  | append_singleton as a ih =>
    rw [made_concat, listed_add]
    exact ih.snoc a

theorem preferred_nextToken : Preferred as c ((made name as).nextToken c) := by
  cases hnext : (made name as).nextToken c with
  | none =>
    obtain ⟨hconstructs, hrules⟩ := nextToken_eq_none_iff.1 hnext
    intro a ha
    rw [← (stablyOrdered_listed name as).mem_iff, listed, List.mem_append] at ha
    rcases ha with ha | ha
    · obtain ⟨k, hk, rfl⟩ := List.mem_map.1 ha
      exact hconstructs k hk
    · obtain ⟨r, hr, rfl⟩ := List.mem_map.1 ha
      exact hrules r hr
  | some token =>
    obtain ⟨front, a, m, back, hsplit, hm, htoken, hfront, hback⟩ := nextToken_split hnext
    obtain ⟨i, hi, hleast⟩ :=
      (hsplit ▸ stablyOrdered_listed name as).first_of_split hm hfront hback
    exact ⟨i, a, m, hi, hm, htoken, hleast⟩

end Language

/-- The token that a stride takes, if it begins outside of constructs. -/
def Stride.token? : Stride → Option Language.Token
  | leaves _ _ => none
  | takes r m => some (.rule r m)
  | opens k m => some (.construct k m)
  | spans k m _ => some (.construct k m)

namespace Language

variable (l : Language) (t : Contexts) (s : LineState) (c : Cursor)

/-- Outside of constructs a scan takes the next token. -/
theorem head_stridesFrom (hs : s.isInside = false) :
    (l.stridesFrom t s c).head?.bind Stride.token? = l.nextToken c := by
  rw [stridesFrom]
  split
  · next hc => exact (l.nextToken_atEnd c hc).symm
  · rw [dif_neg (by simp [hs])]
    split
    · next hn => rw [hn]; rfl
    · next hn => rw [hn]; rfl
    · next hn =>
      rw [hn]
      split <;> rfl

/-- A scan looks at the rules and constructs of a language, and at nothing else of it. -/
theorem scanFrom_eq_of_rules {l l' : Language} (hrules : l.rules = l'.rules)
    (hconstructs : l.constructs = l'.constructs) : l.scanFrom t s c = l'.scanFrom t s c := by
  have hresume (s : LineState) (t : Contexts) : l'.resume? s t = l.resume? s t := by
    rw [resume?, resume?, construct?, construct?, hconstructs]
  have hnext (c : Cursor) : l'.nextToken c = l.nextToken c := by
    rw [nextToken, nextToken, hrules, hconstructs]
  induction t, s, c using scanFrom.induct l with
  | case1 t s c hc => rw [scanFrom_atEnd l t s c hc, scanFrom_atEnd l' t s c hc]
  | case2 t s c hc hin hr ih =>
    rw [scanFrom_lost l t s c hc hin hr, ih,
      scanFrom_lost l' t s c hc hin ((hresume s t).trans hr)]
  | case3 t s c hc hin k p hr he =>
    rw [scanFrom_inside l t s c hc hin hr he,
      scanFrom_inside l' t s c hc hin ((hresume s t).trans hr) he]
  | case4 t s c hc hin k p hr e he _ _ _ ih =>
    rw [scanFrom_leaves l t s c hc hin hr he, ih,
      scanFrom_leaves l' t s c hc hin ((hresume s t).trans hr) he]
  | case5 t s c hc hin hn =>
    rw [scanFrom_blank l t s c hc hin hn, scanFrom_blank l' t s c hc hin ((hnext c).trans hn)]
  | case6 t s c hc hin r m hn _ _ _ ih =>
    rw [scanFrom_rule l t s c hc hin hn, ih, scanFrom_rule l' t s c hc hin ((hnext c).trans hn)]
  | case7 t s c hc hin k m hn _ he =>
    rw [scanFrom_opens l t s c hc hin hn he,
      scanFrom_opens l' t s c hc hin ((hnext c).trans hn) he]
  | case8 t s c hc hin k m hn _ e he _ _ _ ih =>
    rw [scanFrom_spans l t s c hc hin hn he, ih,
      scanFrom_spans l' t s c hc hin ((hnext c).trans hn) he]

end Language

/-- **What decides between rules.**  Whatever is added to a language and in whichever order: its
rules are those added, in the stable order of descending priority.  From every place on the next
token, and with it the one that a scan takes outside of constructs, is the one that begins first; of
those a construct before a rule, then the rule of higher priority, then what was added earlier.  And
additions with the same constructs in order, and the same rules of each priority in order, make a
language that scans every text alike. -/
theorem added_in_order (name : String) (as : List Origin) :
    (Language.made name as).rules =
      (as.filterMap Origin.rule?).mergeSort (fun a b => decide (b.priority ≤ a.priority)) ∧
    (∀ c, Language.Preferred as c ((Language.made name as).nextToken c)) ∧
    (∀ t s c, s.isInside = false → Language.Preferred as c
      (((Language.made name as).stridesFrom t s c).head?.bind Stride.token?)) ∧
    ∀ (other : String) (bs : List Origin),
      bs.filterMap Origin.construct? = as.filterMap Origin.construct? →
      (∀ p, (bs.filterMap Origin.rule?).filter (·.priority = p) =
        (as.filterMap Origin.rule?).filter (·.priority = p)) →
      ∀ t s text, (Language.made other bs).scan t s text =
        (Language.made name as).scan t s text := by
  refine ⟨?_, fun c => Language.preferred_nextToken name as c, fun t s c hs => ?_,
    fun other bs hconstructs hrules t s text => ?_⟩
  · simpa using (Language.stablyOrdered_rules name as).unique (.mergeSort _ _) fun _ => rfl
  · rw [Language.head_stridesFrom _ t s c hs]
    exact Language.preferred_nextToken name as c
  · have hsame : (Language.made other bs).rules =
        (Language.made name as).rules := by
      refine (Language.stablyOrdered_rules other bs).unique (Language.stablyOrdered_rules name as)
        fun p => ?_
      have hpriority (r : TokenRule) : -r.priority = p ↔ r.priority = -p := by omega
      simpa only [hpriority] using hrules (-p)
    rw [Language.scan, Language.scan, Language.plain_made, Language.plain_made,
      Language.scanFrom_eq_of_rules t s _ hsame]
    rw [Language.constructs_made, Language.constructs_made, hconstructs]

/-- A rule for examples, which takes an equals sign. -/
def equals : TokenRule :=
  ⟨"equals", ⟨"=", .one (.single '=')⟩, .operator, 0, 0⟩

/-- Another one, which takes two and goes before it. -/
def equalsTwice : TokenRule :=
  ⟨"equals twice", ⟨"==", .seq (.one (.single '=')) (.one (.single '='))⟩, .operator, 1, 0⟩

/-- Additions for examples. -/
def signs : List Origin :=
  [.rule equals, .construct Language.fence, .rule equalsTwice]

/-- The same with the rules the other way round. -/
def signsTurned : List Origin :=
  [.rule equalsTwice, .rule equals, .construct Language.fence]

/-- The rules for equals signs stand by their priority, so that two signs are one token, and it does
not matter which rule was added first. -/
theorem added_in_order_signs :
    (Language.made "Signs" signs).rules = [equalsTwice, equals] ∧
    (∃ m, (Language.made "Signs" signs).nextToken (.ofString "== <=") =
      some (.rule equalsTwice m)) ∧
    Language.Preferred signs (.ofString "== <=")
      (((Language.made "Signs" signs).stridesFrom .fresh .normal
        (.ofString "== <=")).head?.bind Stride.token?) ∧
    ∀ t s text, (Language.made "Turned" signsTurned).scan t s text =
      (Language.made "Signs" signs).scan t s text := by
  obtain ⟨-, -, hstrides, hscan⟩ := added_in_order "Signs" signs
  refine ⟨rfl, ⟨_, rfl⟩, hstrides _ _ _ rfl, hscan "Turned" signsTurned rfl fun p => ?_⟩
  simp only [signs, signsTurned, List.filterMap_cons, Origin.rule?, List.filterMap_nil,
    List.filter_cons, List.filter_nil, equals, equalsTwice, decide_eq_true_eq]
  split <;> split
  · omega
  all_goals rfl

end Highlighting
