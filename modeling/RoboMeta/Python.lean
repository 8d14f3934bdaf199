/-
  What the services use of Python's strings.

  A `str` is a `String`; where its characters are scanned it is read as the
  list of them (`Text`).  The tables of the Unicode standard that `upper`,
  `lower` and `\w` consult change with the interpreter's version, so they are
  a parameter (`Unicode`) that is fixed on ASCII only.
-/
import Mathlib.Data.List.DropRight
import Mathlib.Data.List.Sort
import RoboMeta.Lib.Firsts

namespace RoboMeta

/-- The characters of a `str`. -/
abbrev Text := List Char

/-! ## White space -/

/-- `str.isspace`: what `strip` removes and `\s` matches. -/
def isSpace (c : Char) : Bool :=
  let n := c.toNat
  (9 ≤ n && n ≤ 13) || (28 ≤ n && n ≤ 32) || n == 0x85 || n == 0xA0 || n == 0x1680 ||
    (0x2000 ≤ n && n ≤ 0x200A) || n == 0x2028 || n == 0x2029 || n == 0x202F || n == 0x205F ||
    n == 0x3000

theorem toNat_of_isAlphanum {c : Char} (h : c.isAlphanum = true) :
    48 ≤ c.toNat ∧ c.toNat ≤ 57 ∨ 65 ≤ c.toNat ∧ c.toNat ≤ 90 ∨ 97 ≤ c.toNat ∧ c.toNat ≤ 122 := by
  change ((decide (c.val ≥ 'A'.val ∧ c.val ≤ 'Z'.val) || (c.val ≥ 'a'.val && c.val ≤ 'z'.val)) ||
    (c.val ≥ '0'.val && c.val ≤ '9'.val)) = true at h
  simp only [Bool.or_eq_true, Bool.and_eq_true, decide_eq_true_eq, UInt32.le_iff_toNat_le, ge_iff_le] at h
  change ((65 ≤ c.toNat ∧ c.toNat ≤ 90) ∨ (97 ≤ c.toNat ∧ c.toNat ≤ 122)) ∨ (48 ≤ c.toNat ∧ c.toNat ≤ 57) at h
  omega

theorem isAlphanum_of_isSpace {c : Char} (h : isSpace c = true) : c.isAlphanum = false := by
  by_contra hn
  have hrange := toNat_of_isAlphanum (Bool.eq_true_of_not_eq_false hn)
  simp only [isSpace, Bool.or_eq_true, Bool.and_eq_true, decide_eq_true_eq, beq_iff_eq] at h
  omega

def rstrip (s : Text) : Text := s.rdropWhile isSpace

def strip (s : Text) : Text := rstrip (s.dropWhile isSpace)

/-- Nothing but white space. -/
def Blank (s : Text) : Prop := ∀ c ∈ s, isSpace c = true

theorem rdropWhile_append_of_forall {p : Char → Bool} (s : Text) {t : Text} (ht : ∀ c ∈ t, p c = true) :
    (s ++ t).rdropWhile p = s.rdropWhile p := by
  induction t using List.reverseRecOn with
  | nil => rw [List.append_nil]
  | append_singleton t c ih =>
    rw [← List.append_assoc, List.rdropWhile_concat_pos _ _ _ (ht c (by simp))]
    exact ih fun d hd => ht d (List.mem_append_left _ hd)

theorem strip_eq_nil {s : Text} : strip s = [] ↔ Blank s := by
  rw [strip, rstrip, List.rdropWhile_eq_nil_iff]
  constructor
  · intro h c hc
    by_contra hn
    have hne : s.dropWhile isSpace ≠ [] := fun he => hn (List.dropWhile_eq_nil_iff.1 he c hc)
    have hv := List.head_dropWhile_not isSpace hne
    rw [h _ (List.head_mem hne)] at hv
    exact absurd hv (by decide)
  · exact fun h c hc => h c ((List.dropWhile_suffix isSpace).subset hc)

theorem rstrip_append_blank (s : Text) {w : Text} (hw : Blank w) : rstrip (s ++ w) = rstrip s :=
  rdropWhile_append_of_forall s hw

theorem dropWhile_isSpace_append {s : Text} (hs : ¬ Blank s) (t : Text) :
    (s ++ t).dropWhile isSpace = s.dropWhile isSpace ++ t := by
  have hne : s.dropWhile isSpace ≠ [] := fun h => hs (List.dropWhile_eq_nil_iff.1 h)
  rw [List.dropWhile_append, if_neg (by simpa using hne)]

theorem strip_append_blank (s : Text) {w : Text} (hw : Blank w) : strip (s ++ w) = strip s := by
  by_cases hs : Blank s
  · have happend : Blank (s ++ w) := fun c hc => (List.mem_append.1 hc).elim (hs c) (hw c)
    rw [strip_eq_nil.2 hs, strip_eq_nil.2 happend]
  · rw [strip, dropWhile_isSpace_append hs, rstrip_append_blank _ hw, strip]

theorem exists_append_strip (s : Text) : ∃ a b, Blank a ∧ Blank b ∧ s = a ++ strip s ++ b := by
  refine ⟨s.takeWhile isSpace, (s.dropWhile isSpace).rtakeWhile isSpace,
    fun _ => List.mem_takeWhile_imp, fun _ => List.mem_rtakeWhile_imp, ?_⟩
  rw [strip, rstrip, List.append_assoc, List.rdropWhile_append_rtakeWhile, List.takeWhile_append_dropWhile]

theorem mem_of_mem_strip {c : Char} {s : Text} (h : c ∈ strip s) : c ∈ s :=
  (List.dropWhile_suffix _).subset ((List.rdropWhile_prefix _ _).subset h)

section
variable {c : Char} {s : Text} (hc : isSpace c = false)
include hc

theorem mem_dropWhile_isSpace (h : c ∈ s) : c ∈ s.dropWhile isSpace := by
  rw [← List.takeWhile_append_dropWhile (p := isSpace) (l := s), List.mem_append] at h
  refine h.resolve_left fun htake => ?_
  rw [List.mem_takeWhile_imp htake] at hc
  cases hc

theorem mem_rstrip (h : c ∈ s) : c ∈ rstrip s := by
  rw [rstrip, List.rdropWhile, List.mem_reverse]
  exact mem_dropWhile_isSpace hc (List.mem_reverse.2 h)

theorem mem_strip (h : c ∈ s) : c ∈ strip s := mem_rstrip hc (mem_dropWhile_isSpace hc h)

end

/-! ## Texts without blanks at their ends -/

/-- A text that neither starts nor ends with a blank. -/
def Trimmed (s : Text) : Prop :=
  (∀ h : s ≠ [], isSpace (s.head h) = false) ∧ ∀ h : s ≠ [], isSpace (s.getLast h) = false

theorem trimmed_strip (s : Text) : Trimmed (strip s) := by
  constructor
  · intro h
    have hne : s.dropWhile isSpace ≠ [] := fun hnil => h (by rw [strip, hnil]; rfl)
    have hhead : (strip s).head h = (s.dropWhile isSpace).head hne :=
      (List.rdropWhile_prefix isSpace _).head h
    rw [hhead]
    exact List.head_dropWhile_not isSpace hne
  · intro h
    exact Bool.eq_false_iff.2 (List.rdropWhile_last_not isSpace _ h)

theorem Trimmed.strip_eq {s : Text} (h : Trimmed s) : strip s = s := by
  have hdrop : s.dropWhile isSpace = s := by
    rw [List.dropWhile_eq_self_iff]
    intro hl
    have hne : s ≠ [] := List.ne_nil_of_length_pos hl
    rw [← List.head_eq_getElem hne, h.1 hne]
    decide
  rw [strip, hdrop, rstrip, List.rdropWhile_eq_self_iff]
  intro hne
  rw [h.2 hne]
  decide

theorem Trimmed.append_cons {s t : Text} (hs : Trimmed s) (ht : Trimmed t) (hs' : s ≠ []) (ht' : t ≠ []) (c : Char) :
    Trimmed (s ++ c :: t) := by
  constructor
  · intro h
    rw [List.head_append_of_ne_nil hs']
    exact hs.1 hs'
  · intro h
    rw [List.getLast_append_of_ne_nil _ (List.cons_ne_nil c t), List.getLast_cons ht']
    exact ht.2 ht'

/-! ## Strings -/

def stripString (s : String) : String := String.ofList (strip s.toList)

theorem trimmed_stripString (s : String) : Trimmed (stripString s).toList := by
  rw [stripString, String.toList_ofList]
  exact trimmed_strip _

theorem stripString_of_trimmed {s : String} (h : Trimmed s.toList) : stripString s = s := by
  rw [stripString, h.strip_eq, String.ofList_toList]

theorem stripString_stripString (s : String) : stripString (stripString s) = stripString s :=
  stripString_of_trimmed (trimmed_stripString s)

/-- A text that is set. -/
def nonempty (text : Option String) : Option String := text.filter (· ≠ "")

/-- `surface in question`. -/
def occursIn (surface question : String) : Prop := surface.toList <:+: question.toList

instance (surface question : String) : Decidable (occursIn surface question) :=
  inferInstanceAs (Decidable (_ <:+: _))

/-! ## Letters -/

/-- `str.upper` on ASCII text. -/
def asciiUpper (s : String) : String := String.ofList (s.toList.map Char.toUpper)

/-- `str.lower` on ASCII text. -/
def asciiLower (s : String) : String := String.ofList (s.toList.map Char.toLower)

/-- The small letter of a capital one. -/
theorem toNat_toLower {c : Char} (hc : c.val ≥ 'A'.val ∧ c.val ≤ 'Z'.val) :
    65 ≤ c.val.toNat ∧ c.toLower.val.toNat = c.val.toNat + 32 := by
  have hge : 65 ≤ c.val.toNat := UInt32.le_iff_toNat_le.1 hc.1
  have hle : c.val.toNat ≤ 90 := UInt32.le_iff_toNat_le.1 hc.2
  have hdiff : ('a'.val - 'A'.val).toNat = 32 := rfl
  have hlower : c.toLower.val = c.val + ('a'.val - 'A'.val) := congrArg Char.val (dif_pos hc)
  refine ⟨hge, ?_⟩
  rw [hlower, UInt32.toNat_add, hdiff]
  omega

/-- The character tables of one Unicode version. -/
structure Unicode where
  isAlnum : Char → Bool
  upper : String → String
  lower : String → String
  isAlnum_ascii : ∀ c, c.toNat < 128 → isAlnum c = c.isAlphanum
  upper_ascii : ∀ s : String, (∀ c ∈ s.toList, c.toNat < 128) → upper s = asciiUpper s
  lower_ascii : ∀ s : String, (∀ c ∈ s.toList, c.toNat < 128) → lower s = asciiLower s

/-- The tables that know ASCII letters only. -/
def Unicode.ascii : Unicode where
  isAlnum := Char.isAlphanum
  upper := asciiUpper
  lower := asciiLower
  isAlnum_ascii _ _ := rfl
  upper_ascii _ _ := rfl
  lower_ascii _ _ := rfl

theorem ascii_of_all {s : String} (h : s.toList.all (fun c => c.toNat < 128) = true) : ∀ c ∈ s.toList, c.toNat < 128 :=
  fun c hc => of_decide_eq_true (List.all_eq_true.1 h c hc)

/-- `\w`. -/
def Unicode.isWord (U : Unicode) (c : Char) : Bool := U.isAlnum c || c == '_'

/-! ## Collections -/

/-- A JSON value that is handed on unread, as its text. -/
abbrev Json := String

/-- A `dict`, its items in insertion order. -/
abbrev Dict (κ ν : Type*) := List (κ × ν)

section
variable {κ ν : Type*} [DecidableEq κ]

/-- `d[k] = v`: an old key keeps its place. -/
def Dict.set (d : Dict κ ν) (k : κ) (v : ν) : Dict κ ν :=
  match d with
  | [] => [(k, v)]
  | (k', v') :: d => if k' = k then (k, v) :: d else (k', v') :: Dict.set d k v

/-- `d.get(k)`. -/
def Dict.get? (d : Dict κ ν) (k : κ) : Option ν := List.lookup k d

theorem Dict.get?_isSome {d : Dict κ ν} {k : κ} : (d.get? k).isSome ↔ k ∈ d.map Prod.fst := by
  rw [Dict.get?, List.lookup_isSome_iff]
  simp

theorem Dict.keys_set (d : Dict κ ν) (k : κ) (v : ν) :
    (d.set k v).map Prod.fst =
      if k ∈ d.map Prod.fst then d.map Prod.fst else d.map Prod.fst ++ [k] := by
  induction d with
  | nil => simp [Dict.set]
  | cons item d ih =>
    obtain ⟨k', v'⟩ := item
    by_cases hk : k' = k
    · simp [Dict.set, hk]
    · rw [Dict.set, if_neg hk, List.map_cons, ih]
      split_ifs with hmem hmem' hmem' <;> simp_all [Ne.symm hk]

theorem Dict.set_of_notMem {d : Dict κ ν} {k : κ} (h : k ∉ d.map Prod.fst) (v : ν) :
    d.set k v = d ++ [(k, v)] := by
  induction d with
  | nil => rfl
  | cons item d ih =>
    rw [List.map_cons, List.mem_cons, not_or] at h
    rw [Dict.set, if_neg (Ne.symm h.1), ih h.2, List.cons_append]

theorem Dict.nodup_set {d : Dict κ ν} (h : (d.map Prod.fst).Nodup) (k : κ) (v : ν) :
    ((d.set k v).map Prod.fst).Nodup := by
  rw [Dict.keys_set]
  split_ifs with hmem
  · exact h
  · refine List.Nodup.append h (List.nodup_singleton k) ?_
    simpa using hmem

theorem Dict.get?_set (d : Dict κ ν) (k k' : κ) (v : ν) :
    (d.set k v).get? k' = if k' = k then some v else d.get? k' := by
  induction d with
  | nil =>
    by_cases hk : k' = k
    · simp [Dict.set, Dict.get?, hk]
    · have hne : (k' == k) = false := by simpa using hk
      simp [Dict.set, Dict.get?, List.lookup_cons, hk, hne]
  | cons item d ih =>
    obtain ⟨a, b⟩ := item
    simp only [Dict.get?] at ih ⊢
    by_cases ha : a = k
    · subst ha
      by_cases hk : k' = a
      · simp [Dict.set, hk]
      · have hne : (k' == a) = false := by simpa using hk
        simp [Dict.set, List.lookup_cons, hk, hne]
    · rw [Dict.set, if_neg ha, List.lookup_cons, List.lookup_cons, ih]
      by_cases hk : k' = a
      · subst hk
        simp [ha]
      · have hne : (k' == a) = false := by simpa using hk
        simp [hne]

/-- Of items with one key the last counts. -/
theorem Dict.get?_foldl_set (items d : Dict κ ν) (k : κ) :
    (items.foldl (fun d item => d.set item.1 item.2) d).get? k = (items.reverse.lookup k).or (d.get? k) := by
  induction items generalizing d with
  | nil => rfl
  | cons item items ih =>
    obtain ⟨a, v⟩ := item
    rw [List.foldl_cons, ih, Dict.get?_set, List.reverse_cons, List.lookup_append, Option.or_assoc, List.lookup_cons]
    by_cases hk : k = a
    · subst hk
      rw [if_pos rfl, beq_self_eq_true, Option.some_or]
    · have hne : (k == a) = false := by simpa using hk
      rw [if_neg hk, hne, List.lookup_nil, Option.none_or]

theorem Dict.nodup_foldl_set (items : Dict κ ν) {d : Dict κ ν} (h : (d.map Prod.fst).Nodup) :
    ((items.foldl (fun d item => d.set item.1 item.2) d).map Prod.fst).Nodup := by
  induction items generalizing d with
  | nil => exact h
  | cons item items ih => exact ih (Dict.nodup_set h item.1 item.2)

theorem Dict.mem_iff_get? {d : Dict κ ν} (h : (d.map Prod.fst).Nodup) {k : κ} {v : ν} :
    (k, v) ∈ d ↔ d.get? k = some v := by
  induction d with
  | nil => simp [Dict.get?]
  | cons item d ih =>
    obtain ⟨a, b⟩ := item
    rw [List.map_cons, List.nodup_cons] at h
    simp only [Dict.get?] at ih ⊢
    by_cases hk : k = a
    · subst hk
      have hnot : (k, v) ∉ d := fun hmem => h.1 (List.mem_map.2 ⟨(k, v), hmem, rfl⟩)
      simp [hnot, eq_comm]
    · have hne : (k == a) = false := by simpa using hk
      simp [List.lookup_cons, hne, hk, ih h.2]

theorem Dict.mem_set_iff {d : Dict κ ν} (hd : (d.map Prod.fst).Nodup) {k k' : κ} {v v' : ν} :
    (k', v') ∈ d.set k v ↔ k' = k ∧ v' = v ∨ k' ≠ k ∧ (k', v') ∈ d := by
  rw [Dict.mem_iff_get? (Dict.nodup_set hd k v), Dict.get?_set, Dict.mem_iff_get? hd]
  by_cases hk : k' = k
  · simp [hk, eq_comm]
  · simp [hk]

theorem Dict.mem_or_eq_of_mem_set {d : Dict κ ν} {k : κ} {v : ν} {item : κ × ν} (h : item ∈ d.set k v) :
    item ∈ d ∨ item = (k, v) := by
  induction d with
  | nil => exact Or.inr (List.mem_singleton.1 h)
  | cons head d ih =>
    rw [Dict.set] at h
    split_ifs at h with hk
    · rcases List.mem_cons.1 h with rfl | h
      · exact Or.inr rfl
      · exact Or.inl (List.mem_cons_of_mem _ h)
    · rcases List.mem_cons.1 h with rfl | h
      · exact Or.inl List.mem_cons_self
      · exact (ih h).imp_left (List.mem_cons_of_mem _)

theorem Dict.mem_keys_foldl_set {items d : Dict κ ν} {k : κ} :
    k ∈ (items.foldl (fun d item => d.set item.1 item.2) d).map Prod.fst ↔
      k ∈ d.map Prod.fst ∨ k ∈ items.map Prod.fst := by
  induction items generalizing d with
  | nil => simp
  | cons item items ih =>
    rw [List.foldl_cons, ih, Dict.keys_set, List.map_cons, List.mem_cons]
    split_ifs with hmem
    · refine or_congr_right' fun hk => (or_iff_right ?_).symm
      rintro rfl
      exact hk hmem
    · simp only [List.mem_append, List.mem_singleton, or_assoc]

/-- The keys stand in the order of their first items. -/
theorem Dict.keys_foldl_set (items : Dict κ ν) :
    (items.foldl (fun d item => Dict.set d item.1 item.2) []).map Prod.fst = firsts id (items.map Prod.fst) := by
  induction items using List.reverseRecOn with
  | nil => rfl
  | append_singleton items item ih =>
    rw [List.foldl_append, List.foldl_cons, List.foldl_nil, Dict.keys_set, ih, List.map_append, List.map_singleton,
      firsts_concat, List.map_id]
    simp only [mem_firsts_id, id]

/-- `d[k].append(v)` on a `defaultdict(list)`. -/
def Dict.push (d : Dict κ (List ν)) (k : κ) (v : ν) : Dict κ (List ν) :=
  d.set k ((d.get? k).getD [] ++ [v])

section
variable {α : Type*} (key : α → κ) (value : α → ν)

/-- The values of a list of items, grouped by their keys. -/
def groupBy (items : List α) : Dict κ (List ν) :=
  items.foldl (fun d x => d.push (key x) (value x)) []

theorem nodup_groupBy (items : List α) : ((groupBy key value items).map Prod.fst).Nodup := by
  unfold groupBy
  induction items using List.reverseRecOn with
  | nil => exact List.nodup_nil
  | append_singleton items x ih =>
    rw [List.foldl_append]
    exact Dict.nodup_set ih _ _

theorem get?_groupBy (items : List α) (k : κ) :
    (groupBy key value items).get? k =
      if k ∈ items.map key then some ((items.filter fun x => key x = k).map value) else none := by
  unfold groupBy
  induction items using List.reverseRecOn with
  | nil => rfl
  | append_singleton items x ih =>
    rw [List.foldl_append, List.foldl_cons, List.foldl_nil, Dict.push, Dict.get?_set]
    by_cases hk : k = key x
    · subst hk
      rw [if_pos rfl, ih, List.map_append, List.filter_append, List.map_append]
      split_ifs with hmem hmem'
      · simp
      · simp at hmem'
      · have hnil : (items.filter fun y => key y = key x) = [] :=
          List.filter_eq_nil_iff.2 fun y hy he => hmem (List.mem_map.2 ⟨y, hy, by simpa using he⟩)
        simp [hnil]
      · simp_all
    · have hx : key x ≠ k := Ne.symm hk
      rw [if_neg hk, ih]
      simp [hx, hk]

/-- **A group holds the values of all items with its key, in order.** -/
theorem mem_groupBy {items : List α} {k : κ} {vs : List ν} :
    (k, vs) ∈ groupBy key value items ↔
      k ∈ items.map key ∧ vs = (items.filter fun x => key x = k).map value := by
  rw [Dict.mem_iff_get? (nodup_groupBy key value items), get?_groupBy]
  split_ifs with hmem
  · simp only [hmem, Option.some.injEq, true_and, eq_comm]
  · simp [hmem]

/-- The items of every key, key by key. -/
theorem perm_flatMap_filter {ks : List κ} (h : ks.Nodup) {items : List α} (hmem : ∀ x ∈ items, key x ∈ ks) :
    (ks.flatMap fun k => items.filter fun x => key x = k).Perm items := by
  induction ks generalizing items with
  | nil =>
    have hnil : items = [] := List.eq_nil_iff_forall_not_mem.2 fun x hx => List.not_mem_nil (hmem x hx)
    simp [hnil]
  | cons k ks ih =>
    rw [List.nodup_cons] at h
    have hrest : (ks.flatMap fun k' => items.filter fun x => key x = k') =
        ks.flatMap fun k' => (items.filter fun x => ¬ key x = k).filter fun x => key x = k' := by
      refine List.flatMap_congr fun k' hk' => ?_
      rw [List.filter_filter]
      refine List.filter_congr fun x _ => ?_
      have hne : k' ≠ k := fun he => h.1 (he ▸ hk')
      by_cases hx : key x = k' <;> simp [hx, hne]
    have hperm : (ks.flatMap fun k' => (items.filter fun x => ¬ key x = k).filter fun x => key x = k').Perm
        (items.filter fun x => ¬ key x = k) := by
      refine ih h.2 fun x hx => ?_
      rw [List.mem_filter, decide_eq_true_eq] at hx
      exact (List.mem_cons.1 (hmem x hx.1)).resolve_left hx.2
    rw [List.flatMap_cons, hrest]
    refine (hperm.append_left _).trans ?_
    simpa using List.filter_append_perm (fun x => decide (key x = k)) items

/-- **Grouping loses and duplicates nothing.** -/
theorem flatten_groupBy_perm (items : List α) :
    ((groupBy key id items).map Prod.snd).flatten.Perm items := by
  have hkeys := nodup_groupBy key id items
  have hgroups : (groupBy key id items).map Prod.snd =
      ((groupBy key id items).map Prod.fst).map fun k => items.filter fun x => key x = k := by
    rw [List.map_map]
    refine List.map_congr_left fun group hgroup => ?_
    simpa using ((mem_groupBy key id).1 hgroup).2
  rw [hgroups, ← List.flatMap_def]
  refine perm_flatMap_filter key hkeys fun x hx => ?_
  have hget := get?_groupBy key id items (key x)
  rw [if_pos (List.mem_map_of_mem hx)] at hget
  rw [← Dict.get?_isSome, hget]
  rfl

end

/-- A filter that looks at the keys only keeps or drops the items of a key. -/
theorem Dict.get?_filter (d : Dict κ ν) (p : κ → Bool) (k : κ) :
    Dict.get? (d.filter fun item => p item.1) k = if p k then d.get? k else none := by
  induction d with
  | nil => simp [Dict.get?]
  | cons item d ih =>
    obtain ⟨k', v⟩ := item
    simp only [Dict.get?] at ih ⊢
    by_cases hk : k = k'
    · subst hk
      cases hp : p k with
      | true => simp [hp]
      | false => simpa [hp] using ih
    · have hne : (k == k') = false := by simpa using hk
      cases hp : p k' with
      | true => simp [hp, List.lookup_cons, hne, ih]
      | false => simp [hp, List.lookup_cons, hne, ih]

end

/-- `sorted` on a collection of strings. -/
def sortedStrings (xs : List String) : List String := xs.insertionSort (· ≤ ·)

/-- The `repr` of a list of strings without quotes in them. -/
def reprStrings (xs : List String) : String :=
  "[" ++ ", ".intercalate (xs.map fun x => "'" ++ x ++ "'") ++ "]"

end RoboMeta
