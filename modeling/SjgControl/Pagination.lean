import SjgControl.GitHubSource
import SjgControl.Publication

/-! Pages read by offset from a list that shifts under the reader. An item that is not updated only
moves forward as others are updated; it is missed when it moves, between two fetches, from a page
still to be read onto one that was read already. -/
namespace SjgControl
open Relational Machine

/-! Positions. -/

/-- The item crosses the end of the pages read so far. -/
def crosses (size : Nat) (position : Nat → Nat) (n : Nat) : Prop :=
  size * (n + 1) ≤ position n ∧ position (n + 1) < size * (n + 1)

theorem falls_le {position : Nat → Nat} {last n m : Nat} (falls : ∀ k < last, position (k + 1) ≤ position k)
    (order : n ≤ m) (bound : m ≤ last) : position m ≤ position n := by
  induction order with
  | refl => exact le_refl _
  | @step m order ih => exact (falls m (by omega)).trans (ih (by omega))

/-- A falling position that the last page covers is read just when it crosses nowhere. -/
theorem read_iff {size last : Nat} {position : Nat → Nat} (falls : ∀ k < last, position (k + 1) ≤ position k)
    (covered : position last < size * (last + 1)) :
    (∃ n ≤ last, size * n ≤ position n ∧ position n < size * (n + 1)) ↔ ∀ n < last, ¬ crosses size position n := by
  constructor
  · rintro ⟨n,bound,low,high⟩ m less ⟨ahead,behind⟩
    rcases Nat.lt_or_ge m n with before | after
    · have still := falls_le falls (show m + 1 ≤ n from before) bound
      have pages : size * (m + 1) ≤ size * n := Nat.mul_le_mul_left size before
      omega
    · have still := falls_le falls after (by omega)
      have pages : size * (n + 1) ≤ size * (m + 1) := Nat.mul_le_mul_left size (by omega)
      omega
  · intro never
    by_contra unread
    -- not read so far, the position stays beyond the pages read
    have ahead : ∀ n ≤ last, size * (n + 1) ≤ position n := by
      intro n bound
      induction n with
      | zero =>
        by_contra small
        exact unread ⟨0,bound,by simp,by omega⟩
      | succ n ih =>
        have before := ih (by omega)
        have stays : size * (n + 1) ≤ position (n + 1) := by
          by_contra low
          exact never n (by omega) ⟨before,by omega⟩
        by_contra small
        exact unread ⟨n + 1,bound,stays,by omega⟩
    have final := ahead last (le_refl _)
    omega

theorem findIdx_filter_le {α : Type} {p q : α → Bool} {items : List α} (keeps : ∀ x, p x = true → q x = true) :
    (items.filter q).findIdx p ≤ items.findIdx p := by
  induction items with
  | nil => exact le_refl _
  | cons item rest ih =>
    cases found : p item with
    | true => rw [List.filter_cons_of_pos (keeps item found),List.findIdx_cons,found]; simp
    | false =>
      rw [List.findIdx_cons,found]
      cases kept : q item with
      | true =>
        rw [List.filter_cons_of_pos kept,List.findIdx_cons,found]
        simpa using ih
      | false =>
        rw [List.filter_cons_of_neg (by simp [kept])]
        exact ih.trans (Nat.le_succ _)

theorem findIdx_append_le {α : Type} {p : α → Bool} {items more : List α} (present : ∃ x ∈ items, p x = true) :
    (items ++ more).findIdx p = items.findIdx p := by
  rw [List.findIdx_append,if_pos]
  obtain ⟨x,member,holds⟩ := present
  exact List.findIdx_lt_length_of_exists ⟨x,member,holds⟩

theorem mem_slice_iff {α κ : Type} [DecidableEq κ] {key : α → κ} {items : List α} (distinct : (items.map key).Nodup)
    {x : α} (member : x ∈ items) {start size : Nat} :
    x ∈ (items.drop start).take size ↔
      start ≤ items.findIdx (fun y => key y = key x) ∧ items.findIdx (fun y => key y = key x) < start + size := by
  have inside : items.findIdx (fun y => decide (key y = key x)) < items.length :=
    List.findIdx_lt_length_of_exists ⟨x,member,by simp⟩
  have here : items[items.findIdx (fun y => decide (key y = key x))]? = some x := by
    rw [List.getElem?_eq_getElem inside]
    have same := List.findIdx_getElem (w := inside)
    have equal := of_decide_eq_true same
    exact congrArg some (List.inj_on_of_nodup_map distinct (List.getElem_mem inside) member equal)
  constructor
  · intro listed
    obtain ⟨i,found⟩ := List.mem_iff_getElem?.mp listed
    rw [List.getElem?_take] at found
    split at found
    next small =>
      rw [List.getElem?_drop] at found
      have bound : start + i < items.length := (List.getElem?_eq_some_iff.mp found).1
      have nodup : items.Nodup := distinct.of_map
      have equal : start + i = items.findIdx (fun y => decide (key y = key x)) :=
        (List.getElem?_inj bound nodup).mp (found.trans here.symm)
      omega
    next => contradiction
  · rintro ⟨low,high⟩
    rw [List.mem_iff_getElem?]
    refine ⟨items.findIdx (fun y => decide (key y = key x)) - start,?_⟩
    rw [List.getElem?_take,if_pos (by omega),List.getElem?_drop,Nat.add_sub_cancel' low]
    exact here

section Related
variable {α β : Type} {R : α → β → Prop} {xs : List α} {ys : List β}

theorem forall₂_left (related : List.Forall₂ R xs ys) (a : α) (member : a ∈ xs) : ∃ b ∈ ys, R a b := by
  obtain ⟨i,bound,rfl⟩ := List.mem_iff_getElem.mp member
  have length := related.length_eq
  exact ⟨ys[i],List.getElem_mem (by omega),related.get bound (by omega)⟩

theorem forall₂_right (related : List.Forall₂ R xs ys) (b : β) (member : b ∈ ys) : ∃ a ∈ xs, R a b :=
  forall₂_left related.flip b member

end Related

/-! Numerals. -/

theorem decimal_append (front : List Char) (c : Char) : decimal (front ++ [c]) = 10 * decimal front + (c.toNat - 48) := by
  simp [decimal,List.foldl_append]

theorem decimal_toDigits (n : Nat) : decimal (Nat.toDigits 10 n) = n := by
  induction n using Nat.strong_induction_on with
  | _ n ih =>
    rcases Nat.lt_or_ge n 10 with small | large
    · rw [Nat.toDigits_of_lt_base small]
      have digit := Nat.toNat_digitChar_sub_48_of_lt_ten small
      simpa [decimal] using digit
    · rw [Nat.toDigits_of_base_le (by decide) large,decimal_append,ih (n / 10) (by omega),
        Nat.toNat_digitChar_sub_48_of_lt_ten (Nat.mod_lt n (by decide))]
      omega

theorem decimal_toString (n : Nat) : decimal (toString n).toList = n := by
  change decimal (Nat.repr n).toList = n
  rw [Nat.toList_repr]
  exact decimal_toDigits n

theorem toString_inj {m n : Nat} (same : toString m = toString n) : m = n := by
  rw [← decimal_toString m,same,decimal_toString]

/-! The remote. -/

structure RemoteItem where
  key : Nat
  updatedAt : String
  rest : Item
  dated : updatedAt ≠ ""
  ints : integral rest

namespace RemoteItem

def keyField (sourceId : String) : String := if endsWith sourceId "comments" then "id" else "number"

def raw (sourceId : String) (x : RemoteItem) : Item :=
  (keyField sourceId,.int x.key)::("updated_at",.str x.updatedAt)::x.rest

end RemoteItem

/-- The issues or the comments of a repository, in the order of their last update. -/
structure Remote where
  items : List RemoteItem
  sorted : items.Pairwise (fun a b => a.updatedAt ≤ b.updatedAt)
  distinct : (items.map RemoteItem.key).Nodup

namespace Remote

/-- The item `x` is new, or an update of the one with its key; either way it is the last one. -/
def touch (r : Remote) (x : RemoteItem) : Remote :=
  if later : ∀ y ∈ r.items, y.updatedAt < x.updatedAt then
    ⟨r.items.filter (fun y => y.key ≠ x.key) ++ [x],by
      rw [List.pairwise_append]
      refine ⟨r.sorted.filter _,List.pairwise_singleton _ _,?_⟩
      intro a inside b last
      rw [List.mem_singleton.mp last]
      exact (later a (List.mem_of_mem_filter inside)).le,by
      rw [List.map_append,List.map_singleton]
      refine List.Nodup.append (r.distinct.sublist (List.filter_sublist.map _)) (List.nodup_singleton _) ?_
      intro key inside own
      obtain ⟨y,kept,rfl⟩ := List.mem_map.mp inside
      have other := (List.mem_filter.mp kept).2
      rw [List.mem_singleton.mp own] at other
      simp at other⟩
  else r

/-- The items with `updated_at >= since`. -/
def listed (r : Remote) (since : String) : List RemoteItem := r.items.filter (fun x => since ≤ x.updatedAt)

def slice (r : Remote) (since : String) (page : Nat) : List RemoteItem :=
  ((r.listed since).drop (100 * (page - 1))).take 100

def answer (r : Remote) (sourceId : String) (fields : List (String × String)) : Except PollError Json :=
  match (fields.find? (fun f => f.1 = "page")).map Prod.snd,(fields.find? (fun f => f.1 = "since")).map Prod.snd with
  | some page,some since => .ok (.arr ((r.slice since (decimal page.toList)).map (fun x => .obj (x.raw sourceId))))
  | _,_ => .error ⟨"SourceError","gh: Validation Failed (HTTP 422)"⟩

end Remote

/-- What becomes of the remote during a poll: the updates between one page fetch and the next, the fetches
that fail, and the answers to the look-ups of each page. -/
structure History where
  start : Remote
  touches : Nat → List RemoteItem
  refuses : Nat → Option PollError
  lookup : Nat → Nat → Transport

namespace History
variable (h : History)

def remote : Nat → Remote
  | 0 => h.start
  | n + 1 => (h.touches n).foldl Remote.touch (remote n)

def transport (sourceId : String) (n : Nat) : Nat → Transport
  | 0,_,fields =>
    match h.refuses n with
    | some e => .error e
    | none => (h.remote n).answer sourceId fields
  | i + 1,endpoint,fields => h.lookup n i endpoint fields

def source (lib : PollLibrary) (g : GitHubSource) : Source :=
  ⟨fun n watermark cursor _ => g.fetchPage lib (h.transport g.sourceId n) watermark cursor⟩

def position (since : String) (x : RemoteItem) (n : Nat) : Nat :=
  ((h.remote n).listed since).findIdx (fun y => y.key = x.key)

/-- The item is there from the first fetch on, recent enough, and not updated before fetch `last`. -/
structure Steady (since : String) (last : Nat) (x : RemoteItem) : Prop where
  start : x ∈ h.start.items
  recent : since ≤ x.updatedAt
  untouched : ∀ n < last, ∀ y ∈ h.touches n, y.key ≠ x.key

end History

namespace Remote
variable {r : Remote} {x : RemoteItem} {since : String}

theorem mem_touch {t : RemoteItem} (member : x ∈ r.items) (other : t.key ≠ x.key) : x ∈ (r.touch t).items := by
  unfold touch
  split
  next =>
    apply List.mem_append_left
    exact List.mem_filter.mpr ⟨member,by simpa using other.symm⟩
  next => exact member

theorem mem_listed : x ∈ r.listed since ↔ x ∈ r.items ∧ since ≤ x.updatedAt := by
  simp [listed]

theorem listed_distinct : ((r.listed since).map RemoteItem.key).Nodup :=
  r.distinct.sublist (List.filter_sublist.map _)

theorem touch_position {t : RemoteItem} (member : x ∈ r.items) (recent : since ≤ x.updatedAt)
    (other : t.key ≠ x.key) :
    ((r.touch t).listed since).findIdx (fun y => y.key = x.key) ≤ (r.listed since).findIdx (fun y => y.key = x.key) := by
  unfold touch
  split
  next =>
    have swap : (r.items.filter (fun y => y.key ≠ t.key)).filter (fun y => since ≤ y.updatedAt) =
        (r.listed since).filter (fun y => y.key ≠ t.key) := List.filter_comm _ _ _
    unfold listed
    simp only [List.filter_append]
    rw [swap,findIdx_append_le]
    · apply findIdx_filter_le
      intro y same
      simpa [of_decide_eq_true same] using other.symm
    · refine ⟨x,List.mem_filter.mpr ⟨mem_listed.mpr ⟨member,recent⟩,?_⟩,by simp⟩
      simpa using other.symm
  next => exact le_refl _

theorem touches_position {touches : List RemoteItem} (member : x ∈ r.items) (recent : since ≤ x.updatedAt)
    (others : ∀ t ∈ touches, t.key ≠ x.key) :
    x ∈ (touches.foldl touch r).items ∧
      ((touches.foldl touch r).listed since).findIdx (fun y => y.key = x.key) ≤
        (r.listed since).findIdx (fun y => y.key = x.key) := by
  induction touches generalizing r with
  | nil => exact ⟨member,le_refl _⟩
  | cons t rest ih =>
    have other := others t List.mem_cons_self
    obtain ⟨stays,later⟩ := ih (mem_touch member other) (fun u inside => others u (List.mem_cons_of_mem _ inside))
    exact ⟨stays,later.trans (touch_position member recent other)⟩

end Remote

namespace History.Steady
variable {h : History} {since : String} {last : Nat} {x : RemoteItem}

theorem mem (steady : h.Steady since last x) {n : Nat} (bound : n ≤ last) : x ∈ (h.remote n).items := by
  induction n with
  | zero => exact steady.start
  | succ n ih => exact (Remote.touches_position (ih (by omega)) steady.recent (steady.untouched n (by omega))).1

theorem falls (steady : h.Steady since last x) : ∀ n < last, h.position since x (n + 1) ≤ h.position since x n := by
  intro n less
  exact (Remote.touches_position (steady.mem less.le) steady.recent (steady.untouched n less)).2

theorem mem_slice (steady : h.Steady since last x) {n : Nat} (bound : n ≤ last) :
    x ∈ (h.remote n).slice since (n + 1) ↔
      100 * n ≤ h.position since x n ∧ h.position since x n < 100 * (n + 1) := by
  have member : x ∈ (h.remote n).listed since := Remote.mem_listed.mpr ⟨steady.mem bound,steady.recent⟩
  exact mem_slice_iff Remote.listed_distinct member

theorem read_iff (steady : h.Steady since last x) (short : ((h.remote last).slice since (last + 1)).length < 100) :
    (∃ n ≤ last, x ∈ (h.remote n).slice since (n + 1)) ↔ ∀ n < last, ¬ crosses 100 (h.position since x) n := by
  have covered : h.position since x last < 100 * (last + 1) := by
    have member : x ∈ (h.remote last).listed since := Remote.mem_listed.mpr ⟨steady.mem (le_refl _),steady.recent⟩
    have inside : h.position since x last < ((h.remote last).listed since).length :=
      List.findIdx_lt_length_of_exists ⟨x,member,by simp⟩
    simp only [Remote.slice,List.length_take,List.length_drop,Nat.add_sub_cancel] at short
    omega
  rw [← SjgControl.read_iff steady.falls covered]
  constructor
  · rintro ⟨n,bound,inside⟩
    exact ⟨n,bound,(steady.mem_slice bound).mp inside⟩
  · rintro ⟨n,bound,inside⟩
    exact ⟨n,bound,(steady.mem_slice bound).mpr inside⟩

end History.Steady

/-! A page and its raw items. -/

def eventFields : List String := ["updated_at","created_at","id","number","run_attempt","status","conclusion"]

/-- What the identity of an event is read from is the same in both items. -/
def Alike (raw item : Item) : Prop :=
  ∀ name ∈ eventFields, Json.get item name = Json.get raw name ∧ (Json.has item name ↔ Json.has raw name)

theorem replace_other (fields : Item) {name other : String} (value : Json) (apart : name ≠ other) :
    Json.get (fields.map (fun field => if field.1 = other then (other,value) else field)) name =
      Json.get fields name := by
  induction fields with
  | nil => rfl
  | cons field rest ih =>
    unfold Json.get at *
    by_cases here : field.1 = other
    · have passed : field.1 ≠ name := fun same => apart (same.symm.trans here)
      simpa [here,passed,apart.symm] using ih
    · by_cases named : field.1 = name
      · simp [named,apart]
      · simpa [here,named] using ih

theorem replace_has (fields : Item) {name other : String} (value : Json) :
    Json.has (fields.map (fun field => if field.1 = other then (other,value) else field)) name ↔
      Json.has fields name := by
  have same (field : String × Json) : (if field.1 = other then (other,value) else field).1 = field.1 := by
    split
    next here => exact here.symm
    next => rfl
  unfold Json.has
  constructor
  · rintro ⟨field,member,named⟩
    obtain ⟨old,present,rfl⟩ := List.mem_map.mp member
    exact ⟨old,present,(same old).symm.trans named⟩
  · rintro ⟨field,member,named⟩
    exact ⟨_,List.mem_map_of_mem member,(same field).trans named⟩

theorem put_other {fields : Item} {name other : String} (value : Json) (apart : name ≠ other) :
    Json.get (Json.put fields other value) name = Json.get fields name ∧
      (Json.has (Json.put fields other value) name ↔ Json.has fields name) := by
  unfold Json.put
  split
  next => exact ⟨replace_other fields value apart,replace_has fields value⟩
  next => simp [Json.get,Json.has,apart.symm]

theorem alike_put {item : Item} {name : String} (value : Json) (apart : name ∉ eventFields) :
    Alike item (Json.put item name value) := by
  intro field listed
  exact put_other value (fun same => apart (same ▸ listed))

theorem eventIdentity_alike {lib : PollLibrary} {sourceId : String} {raw item : Item} (alike : Alike raw item) :
    eventIdentity lib sourceId item = eventIdentity lib sourceId raw := by
  have text (name : String) (listed : name ∈ eventFields) : itemText lib item name = itemText lib raw name := by
    obtain ⟨got,there⟩ := alike name listed
    simp only [itemText,got,there]
  simp only [eventIdentity,text "id" (by decide),text "number" (by decide),(alike "updated_at" (by decide)).1,
    (alike "created_at" (by decide)).1,(alike "run_attempt" (by decide)).1,(alike "status" (by decide)).1,
    (alike "conclusion" (by decide)).1]

theorem integral_alike {raw item : Item} (alike : Alike raw item) (ints : integral raw) : integral item := by
  intro name listed has
  have field : name ∈ eventFields := by
    simp only [List.mem_cons,List.not_mem_nil,or_false] at listed
    rcases listed with rfl | rfl <;> decide
  obtain ⟨got,there⟩ := alike name field
  rw [got]
  exact ints name listed (there.mp has)

theorem complete_alike {enrich : Transport → Item → Except PollError (Option Item)}
    (keeps : ∀ api item found, enrich api item = .ok found → ∃ x, found = some x ∧ Alike item x)
    {api : Nat → Transport} {i : Nat} {raws items : List Item}
    (ok : GitHubSource.complete enrich api i raws = .ok items) : List.Forall₂ Alike raws items := by
  induction raws generalizing i items with
  | nil =>
    cases ok
    exact .nil
  | cons raw rest ih =>
    obtain ⟨found,first,ok⟩ := bind_ok.mp ok
    obtain ⟨others,later,equal⟩ := bind_ok.mp ok
    obtain ⟨x,rfl,alike⟩ := keeps _ _ _ first
    cases pure_ok.mp equal
    exact .cons alike (ih later)

namespace GitHubSource
variable {lib : PollLibrary} {g : GitHubSource}

theorem completeIssue_keeps (api : Transport) (item : Item) (found : Option Item)
    (ok : g.completeIssue lib api item = .ok found) : ∃ x, found = some x ∧ Alike item x := by
  obtain ⟨pull,_,equal⟩ := bind_ok.mp ok
  cases pure_ok.mp equal
  cases pull with
  | none => exact ⟨item,rfl,fun _ _ => ⟨rfl,Iff.rfl⟩⟩
  | some pull => exact ⟨_,rfl,alike_put pull (by decide)⟩

theorem completeComment_keeps (api : Transport) (item : Item) (found : Option Item)
    (ok : g.completeComment lib api item = .ok found) : ∃ x, found = some x ∧ Alike item x := by
  obtain ⟨parent,_,equal⟩ := bind_ok.mp ok
  cases pure_ok.mp equal
  exact ⟨_,rfl,alike_put parent (by decide)⟩

theorem objects_raw (sourceId : String) (xs : List RemoteItem) :
    objects (.arr (xs.map (fun x => .obj (x.raw sourceId)))) = some (xs.map (RemoteItem.raw sourceId)) := by
  unfold objects
  induction xs with
  | nil => rfl
  | cons x rest ih =>
    simp only at ih
    simp [List.mapM_cons,object,ih]

def Listing (g : GitHubSource) : Prop := endsWith g.sourceId "issues" ∨ endsWith g.sourceId "comments"

theorem fetchPage_ok (listing : g.Listing) {h : History} {n : Nat} {watermark : String} {cursor : Option String}
    {page : Page} (ok : g.fetchPage lib (h.transport g.sourceId n) watermark cursor = .ok page) :
    ∃ k, pageNumber cursor = .ok k ∧
      List.Forall₂ Alike (((h.remote n).slice watermark k).map (RemoteItem.raw g.sourceId)) page.items ∧
      page.nextCursor = if ((h.remote n).slice watermark k).length = 100 then some (toString (k + 1)) else none := by
  obtain ⟨k,number,ok⟩ := bind_ok.mp ok
  refine ⟨k,number,?_⟩
  obtain ⟨⟨raw,items⟩,read,equal⟩ := bind_ok.mp ok
  cases pure_ok.mp equal
  unfold readPage at read
  have answered {fields : List (String × String)} {endpoint : String} {value : Json}
      (pages : (fields.find? (fun f => f.1 = "page")).map Prod.snd = some (toString k))
      (sinces : (fields.find? (fun f => f.1 = "since")).map Prod.snd = some watermark)
      (called : h.transport g.sourceId n 0 endpoint fields = .ok value) :
      objects value = some (((h.remote n).slice watermark k).map (RemoteItem.raw g.sourceId)) := by
    simp only [History.transport] at called
    cases refused : h.refuses n with
    | some e =>
      rw [refused] at called
      contradiction
    | none =>
      rw [refused] at called
      simp only [Remote.answer,pages,sinces,decimal_toString] at called
      cases called
      exact objects_raw _ _
  have finish {raw items : List Item} {enrich : Transport → Item → Except PollError (Option Item)}
      (keeps : ∀ api item found, enrich api item = .ok found → ∃ x, found = some x ∧ Alike item x)
      (raws : raw = ((h.remote n).slice watermark k).map (RemoteItem.raw g.sourceId))
      (done : complete enrich (h.transport g.sourceId n) 1 raw = .ok items) :
      List.Forall₂ Alike (((h.remote n).slice watermark k).map (RemoteItem.raw g.sourceId)) items ∧
        (if raw.length = 100 then some (toString (k + 1)) else none) =
          if ((h.remote n).slice watermark k).length = 100 then some (toString (k + 1)) else none := by
    refine ⟨raws ▸ complete_alike keeps done,?_⟩
    rw [raws,List.length_map]
  split at read
  next =>
    obtain ⟨value,called,read⟩ := bind_ok.mp read
    obtain ⟨raw,found,read⟩ := fetch_bind_ok.mp read
    obtain ⟨items,done,equal⟩ := bind_ok.mp read
    cases pure_ok.mp equal
    have same := answered rfl rfl called
    exact finish completeIssue_keeps (Option.some.inj (found.symm.trans same)) done
  next noIssues =>
    rw [if_pos (listing.resolve_left noIssues)] at read
    obtain ⟨value,called,read⟩ := bind_ok.mp read
    obtain ⟨raw,found,read⟩ := fetch_bind_ok.mp read
    obtain ⟨items,done,equal⟩ := bind_ok.mp read
    cases pure_ok.mp equal
    have same := answered rfl rfl called
    exact finish completeComment_keeps (Option.some.inj (found.symm.trans same)) done

theorem raw_integral (sourceId : String) (x : RemoteItem) : integral (x.raw sourceId) := by
  intro name listed has
  by_cases own : RemoteItem.keyField sourceId = name
  · exact ⟨x.key,by simp [Json.get,RemoteItem.raw,own]⟩
  · have dated : "updated_at" ≠ name := by
      rintro rfl
      simp at listed
    obtain ⟨n,value⟩ := x.ints name listed (by simpa [Json.has,RemoteItem.raw,own,dated] using has)
    exact ⟨n,by simpa [Json.get,RemoteItem.raw,own,dated] using value⟩

theorem raw_identity (lib : PollLibrary) (listing : g.Listing) (x : RemoteItem) :
    eventIdentity lib g.sourceId (x.raw g.sourceId) =
      .ok (toString x.key,toString x.key ++ ":" ++ x.updatedAt,x.updatedAt) := by
  have keyed : itemText lib (x.raw g.sourceId) (RemoteItem.keyField g.sourceId) = .ok (toString x.key) := by
    simp [itemText,RemoteItem.raw,Json.has,Json.get,Json.text]
    rfl
  have other : RemoteItem.keyField g.sourceId ≠ "updated_at" := by
    unfold RemoteItem.keyField
    split <;> decide
  have updated : Json.get (x.raw g.sourceId) "updated_at" = .str x.updatedAt := by
    simp [RemoteItem.raw,Json.get,other]
  have given : (Json.str x.updatedAt).truthy = true := by simpa [Json.truthy] using x.dated
  unfold eventIdentity
  simp only [updated,given,if_true,Json.textOr,Json.text]
  unfold RemoteItem.keyField at keyed
  split
  next comments =>
    rw [if_pos comments] at keyed
    rw [keyed]
    rfl
  next noComments =>
    have issues : endsWith g.sourceId "issues" := listing.resolve_right noComments
    have noRuns : ¬ endsWith g.sourceId "workflow-runs" := by
      intro runs
      -- the two endings differ in length and one would end the other
      have shorter := List.suffix_of_suffix_length_le issues runs (by decide)
      exact absurd shorter (by decide)
    rw [if_neg noComments] at keyed
    rw [if_neg noRuns,keyed]
    rfl

end GitHubSource

namespace Poll
variable {lib : PollLibrary} {g : GitHubSource} {h : History} {p : Poll}

theorem history_integers (listing : g.Listing) (reads : p.source = h.source lib g) : p.integers := by
  intro n query cursor etag page fetched item inside
  rw [reads] at fetched
  obtain ⟨k,_,alike,_⟩ := GitHubSource.fetchPage_ok listing fetched
  obtain ⟨raw,member,same⟩ := forall₂_right alike item inside
  obtain ⟨x,_,rfl⟩ := List.mem_map.mp member
  exact integral_alike same (GitHubSource.raw_integral g.sourceId x)

/-- A loop that ends without a fault has read every slice up to one that is short. -/
theorem collect_slices (listing : g.Listing) (reads : p.source = h.source lib g) {query : String}
    {etag cursor : Option String} {fuel : Nat} {st next : Collecting}
    (done : collect lib p query etag fuel cursor st = some (next,none))
    (numbered : ∀ k, GitHubSource.pageNumber cursor = .ok k → k = st.pages + 1) :
    ∃ last, st.pages ≤ last ∧ next.pages = last + 1 ∧ ((h.remote last).slice query (last + 1)).length < 100 ∧
      (∀ item ∈ (p.pagesFrom query etag fuel st.pages cursor).flatMap Page.items, ∃ n ≤ last,
        ∃ x ∈ (h.remote n).slice query (n + 1), Alike (x.raw g.sourceId) item) ∧
      ∀ n, st.pages ≤ n → n ≤ last → ∀ x ∈ (h.remote n).slice query (n + 1),
        ∃ item ∈ (p.pagesFrom query etag fuel st.pages cursor).flatMap Page.items, Alike (x.raw g.sourceId) item := by
  induction fuel generalizing cursor st with
  | zero => simp [collect] at done
  | succ fuel ih =>
    unfold collect at done
    unfold pagesFrom
    split at done
    next => simp at done
    next page fetched =>
      simp only [List.flatMap_cons]
      rw [reads] at fetched
      obtain ⟨k,number,alike,successor⟩ := GitHubSource.fetchPage_ok listing fetched
      obtain rfl := numbered k number
      have counted : (stageItems lib p page.items {st with
          pages := st.pages + 1
          etag := orElse page.etag st.etag}).1.pages = st.pages + 1 := stageItems_pages _ _
      have from_ : ∀ item ∈ page.items, ∃ x ∈ (h.remote st.pages).slice query (st.pages + 1),
          Alike (x.raw g.sourceId) item := by
        intro item inside
        obtain ⟨raw,member,same⟩ := forall₂_right alike item inside
        obtain ⟨x,present,rfl⟩ := List.mem_map.mp member
        exact ⟨x,present,same⟩
      have onto : ∀ x ∈ (h.remote st.pages).slice query (st.pages + 1), ∃ item ∈ page.items,
          Alike (x.raw g.sourceId) item := by
        intro x present
        exact forall₂_left alike _ (List.mem_map_of_mem present)
      have bounded : ((h.remote st.pages).slice query (st.pages + 1)).length ≤ 100 := List.length_take_le _ _
      split at done
      next => simp at done
      next after staged =>
        rw [staged] at counted
        change after.pages = st.pages + 1 at counted
        split at done
        next last =>
          cases done
          have short : ((h.remote st.pages).slice query (st.pages + 1)).length ≠ 100 := by
            intro full
            rw [last,if_pos full] at successor
            contradiction
          refine ⟨st.pages,le_refl _,counted,by omega,?_,?_⟩
          · intro item inside
            simp only [List.flatMap_nil,List.append_nil] at inside
            exact ⟨st.pages,le_refl _,from_ item inside⟩
          · intro n low high x present
            obtain rfl : n = st.pages := by omega
            obtain ⟨item,inside,same⟩ := onto x present
            exact ⟨item,List.mem_append_left _ inside,same⟩
        next cursor more =>
          have following : ∀ k, GitHubSource.pageNumber (some cursor) = .ok k → k = after.pages + 1 := by
            intro k number
            rw [more] at successor
            split at successor
            next =>
              simp only [GitHubSource.pageNumber] at number
              split at number
              next =>
                cases number
                rw [Option.some.inj successor,decimal_toString,counted]
              next => contradiction
            next => contradiction
          obtain ⟨last,low,pages,short,back,forth⟩ := ih done following
          rw [counted] at low back forth
          refine ⟨last,by omega,pages,short,?_,?_⟩
          · intro item inside
            rcases List.mem_append.mp inside with here | further
            · exact ⟨st.pages,by omega,from_ item here⟩
            · exact back item further
          · intro n start bound x present
            rcases Nat.lt_or_ge st.pages n with later | now
            · obtain ⟨item,inside,same⟩ := forth n later bound x present
              exact ⟨item,List.mem_append_right _ inside,same⟩
            · obtain rfl : n = st.pages := by omega
              obtain ⟨item,inside,same⟩ := onto x present
              exact ⟨item,List.mem_append_left _ inside,same⟩

def Observed (sourceId : String) (x : RemoteItem) (db : Queue) : Prop :=
  ∃ r ∈ db.observed.rows, r.identity = (sourceId,toString x.key,toString x.key ++ ":" ++ x.updatedAt)

variable {db next : Queue}

theorem observed_iff (listing : g.Listing) (own : p.sourceId = g.sourceId) (released : Released lib p db next)
    {query : String} {last : Nat}
    (back : ∀ item ∈ p.items lib db, ∃ n ≤ last, ∃ x ∈ (h.remote n).slice query (n + 1), Alike (x.raw g.sourceId) item)
    (forth : ∀ n ≤ last, ∀ x ∈ (h.remote n).slice query (n + 1), ∃ item ∈ p.items lib db, Alike (x.raw g.sourceId) item)
    {x : RemoteItem} (steady : h.Steady query last x) :
    Observed g.sourceId x next ↔
      Observed g.sourceId x db ∨ ∃ n ≤ last, x ∈ (h.remote n).slice query (n + 1) := by
  constructor
  · rintro ⟨r,member,named⟩
    rcases released.drawn r member with old | ⟨item,inside,event⟩
    · exact .inl ⟨r,old,named⟩
    · obtain ⟨n,bound,y,present,alike⟩ := back item inside
      obtain ⟨occurred,identity⟩ := event.identity
      rw [own,eventIdentity_alike alike,GitHubSource.raw_identity lib listing y] at identity
      simp only [ObservedEvent.identity,Prod.mk.injEq] at named
      have keys : toString y.key = toString x.key := by
        rw [← named.2.1]
        exact congrArg Prod.fst (Except.ok.inj identity)
      have listed : y ∈ (h.remote n).items :=
        (Remote.mem_listed.mp (List.mem_of_mem_drop (List.mem_of_mem_take present))).1
      have same : y = x :=
        List.inj_on_of_nodup_map (h.remote n).distinct listed (steady.mem bound) (toString_inj keys)
      exact .inr ⟨n,bound,same ▸ present⟩
  · intro either
    rcases either with ⟨r,old,named⟩ | ⟨n,bound,present⟩
    · exact ⟨r,released.kept r old,named⟩
    · obtain ⟨item,inside,alike⟩ := forth n bound x present
      obtain ⟨external,version,occurred,identity,once⟩ := released.present item inside
      rw [own,eventIdentity_alike alike,GitHubSource.raw_identity lib listing x] at identity
      cases identity
      by_contra missing
      have none_ : next.observed.count
          (fun r => r.identity = (p.sourceId,toString x.key,toString x.key ++ ":" ++ x.updatedAt)) = 0 := by
        rw [Table.count_eq_zero]
        intro r member named
        exact missing ⟨r,member,own ▸ named⟩
      omega

theorem conclude_pages {st : Collecting} {result : PollResult} (ok : conclude lib p st = ⟨.ok result,next⟩) :
    result.pageCount = st.pages := by
  unfold conclude at ok
  split at ok
  next => simp at ok
  next =>
    split at ok
    next => simp at ok
    next =>
      cases ok
      rfl

/-- An item that was not updated is published by a complete poll, unless it was before, just when it
crosses the end of the pages read nowhere. -/
theorem steady_observed_iff (collisionFree : Function.Injective lib.uuid5) (sound : Sound lib db) (listing : g.Listing)
    (own : p.sourceId = g.sourceId) (reads : p.source = h.source lib g) {result : PollResult}
    (returned : Returns lib db p result) (complete : result.complete = true) {query : String}
    (asked : overlapWatermark lib (p.checkpointRow db).watermark overlapSeconds = .ok query) {x : RemoteItem}
    (steady : h.Steady query (result.pageCount - 1) x) :
    Observed g.sourceId x (step lib db p) ↔
      Observed g.sourceId x db ∨ ∀ n < result.pageCount - 1, ¬ crosses 100 (h.position query x) n := by
  have released := (poll_step collisionFree (history_integers listing reads) sound returned).2.2 complete
  obtain ⟨asking,begun,st,fault,overlap,done,_,⟨e,_,partly,_⟩ | ⟨rfl,_,left⟩⟩ := pollSource_ok (returns_step returned)
  · rw [partly] at complete
    contradiction
  · obtain rfl : query = asking := Except.ok.inj (asked.symm.trans overlap)
    have first : ∀ k, GitHubSource.pageNumber none = .ok k → k = 0 + 1 := by
      intro k number
      cases number
      rfl
    obtain ⟨last,_,pages,short,back,forth⟩ := collect_slices listing reads done first
    have counted : result.pageCount - 1 = last := by
      rw [conclude_pages left,pages]
      rfl
    have items : p.items lib db = (p.pagesFrom query (reusableEtag lib p (p.checkpointRow db) query) p.fuel 0
        none).flatMap Page.items := by
      simp only [Poll.items,overlap]
    rw [← items] at back forth
    rw [counted] at steady ⊢
    rw [observed_iff listing own released back (fun n bound => forth n (Nat.zero_le n) bound) steady,
      steady.read_iff short]

/-- After any polls, a complete poll of a list that is updated between its page fetches has published
every item that was there from the start, was recent enough and was not updated just when none of
those that were not published before moved, between two fetches, from beyond the pages read so
far to within them. -/
theorem pagination_complete_iff (lib : PollLibrary) (collisionFree : Function.Injective lib.uuid5)
    (earlier : List Poll) (ints : ∀ p ∈ earlier, p.integers)
    (returns : Along (step lib) (fun db p => ∃ result, Returns lib db p result) Queue.empty earlier)
    (g : GitHubSource) (listing : g.Listing) (h : History) (p : Poll) (own : p.sourceId = g.sourceId)
    (reads : p.source = h.source lib g) (result : PollResult)
    (returned : Returns lib (run (step lib) Queue.empty earlier) p result) (complete : result.complete = true)
    (query : String) (asked : overlapWatermark lib (p.checkpointRow (run (step lib) Queue.empty earlier)).watermark
      overlapSeconds = .ok query) :
    (∀ x, h.Steady query (result.pageCount - 1) x →
      Observed g.sourceId x (step lib (run (step lib) Queue.empty earlier) p)) ↔
    ∀ x, h.Steady query (result.pageCount - 1) x → ¬ Observed g.sourceId x (run (step lib) Queue.empty earlier) →
      ∀ n < result.pageCount - 1, ¬ crosses 100 (h.position query x) n := by
  have sound : Sound lib (run (step lib) Queue.empty earlier) := by
    refine @invariant_along _ _ (step lib) (fun db p => p.integers ∧ ∃ result, Returns lib db p result) (Sound lib)
      ?_ _ sound_empty earlier (fun t member => ⟨along_of_forall (step lib) ints t member,returns t member⟩)
    rintro db p sound ⟨ints,result,returns⟩
    exact (poll_step collisionFree ints sound returns).1
  have published {x : RemoteItem} (steady : h.Steady query (result.pageCount - 1) x) :=
    steady_observed_iff collisionFree sound listing own reads returned complete asked steady
  constructor
  · intro every x steady unseen
    exact ((published steady).mp (every x steady)).resolve_left unseen
  · intro stays x steady
    rw [published steady]
    by_cases seen : Observed g.sourceId x (run (step lib) Queue.empty earlier)
    · exact .inl seen
    · exact .inr (stays x steady seen)

/-! A source that answers makes the poll complete. -/

def Open (p : Poll) (db : Queue) : Prop :=
  ∃ row ∈ db.snapshots.get p.snapshotId, row.state = .collecting ∧ row.sourceId = p.sourceId

def Legible (lib : PollLibrary) (p : Poll) (items : List Item) : Prop :=
  ∀ item ∈ items, ∃ external version occurred,
    eventIdentity lib p.sourceId item = .ok (external,version,occurred) ∧ occurred ≠ ""

theorem stageItems_succeeds {items : List Item} {st : Collecting} (open_ : p.Open st.queue)
    (legible : Legible lib p items) :
    (stageItems lib p items st).2 = none ∧ p.Open (stageItems lib p items st).1.queue := by
  induction items generalizing st with
  | nil => exact ⟨rfl,open_⟩
  | cons item rest ih =>
    obtain ⟨external,version,occurred,identity,dated⟩ := legible item List.mem_cons_self
    obtain ⟨row,found,collecting,source⟩ := open_
    have staged : ∃ fresh queue, st.queue.stageObservation p.snapshotId
        (lib.uuid5 (eventName p.sourceId external version)) p.sourceId external version occurred (.obj item) =
          .ok (fresh,queue) ∧ queue.snapshots = st.queue.snapshots := by
      simp only [Queue.stageObservation,Option.mem_def.mp found,Option.filter_some,collecting,decide_true,if_true,
        fetch,bind,Except.bind,require,source,pure,Except.pure]
      exact ⟨_,_,rfl,rfl⟩
    obtain ⟨fresh,queue,ok,same⟩ := staged
    unfold stageItems
    rw [identity]
    dsimp only
    rw [if_neg dated,ok]
    apply ih
    · exact ⟨row,by rw [same]; exact found,collecting,source⟩
    · intro other inside
      exact legible other (List.mem_cons_of_mem _ inside)

theorem collect_succeeds {query : String} {etag : Option String} {pages : Nat → Page} {cursors : Nat → Option String}
    {last : Nat} (fetched : ∀ n ≤ last, ∀ etag, p.source.fetchPage n query (cursors n) etag = .ok (pages n))
    (legible : ∀ n ≤ last, Legible lib p (pages n).items)
    (successor : ∀ n < last, ∃ cursor, (pages n).nextCursor = some cursor ∧ cursors (n + 1) = some cursor)
    (final : (pages last).nextCursor = none) {fuel : Nat} {st : Collecting} (open_ : p.Open st.queue)
    (bound : st.pages ≤ last) (enough : last < st.pages + fuel) :
    ∃ next, collect lib p query etag fuel (cursors st.pages) st = some (next,none) ∧ next.pages = last + 1 := by
  induction fuel generalizing st with
  | zero => omega
  | succ fuel ih =>
    unfold collect
    rw [fetched st.pages bound]
    dsimp only
    obtain ⟨done,still⟩ := @stageItems_succeeds lib p (pages st.pages).items {st with
      pages := st.pages + 1
      etag := orElse (pages st.pages).etag st.etag} open_ (legible st.pages bound)
    have counted := @stageItems_pages lib p (pages st.pages).items {st with
      pages := st.pages + 1
      etag := orElse (pages st.pages).etag st.etag}
    generalize stageItems lib p (pages st.pages).items _ = staged at done still counted
    obtain ⟨after,fault⟩ := staged
    cases done
    dsimp only at counted still ⊢
    rcases Nat.lt_or_ge st.pages last with more | stop
    · obtain ⟨cursor,next,same⟩ := successor st.pages more
      rw [next]
      dsimp only
      rw [← same,← counted]
      exact ih still (by omega) (by omega)
    · obtain rfl : st.pages = last := by omega
      rw [final]
      exact ⟨after,rfl,counted⟩

theorem returns_of_collect {query : String} {count : Nat} (known : p.sourceId ∈ sourceIds)
    (asked : overlapWatermark lib (p.checkpointRow db).watermark overlapSeconds = .ok query)
    (fresh : db.snapshots.get p.snapshotId = none)
    (done : ∀ begun : Queue, p.Open begun → ∃ next, collect lib p query (reusableEtag lib p (p.checkpointRow db) query)
      p.fuel none ⟨begun,0,(p.checkpointRow db).watermark,none⟩ = some (next,none) ∧ next.pages = count)
    (readable : ∀ text, ∃ next, overlapWatermark lib text overlapSeconds = .ok next) :
    ∃ result, Returns lib db p result ∧ result.complete = true ∧ result.pageCount = count := by
  let row : SourceSnapshot := ⟨p.snapshotId,p.sourceId,.collecting,p.startedAt.isoText,none,0,none,none⟩
  obtain ⟨snapshots,inserted⟩ : ∃ u, db.snapshots.insert row = some u := Table.insert_of_fresh fresh
  have here : snapshots.get p.snapshotId = some row := by
    rw [Table.get_insert inserted]
    exact if_pos rfl
  have begun : (db.checkpoint p.sourceId p.initialWatermark).beginSnapshot p.snapshotId p.sourceId p.startedAt =
      .ok (p.snapshotId,{db.checkpoint p.sourceId p.initialWatermark with snapshots}) := by
    have same : (db.checkpoint p.sourceId p.initialWatermark).snapshots.insert row = some snapshots := inserted
    unfold Queue.beginSnapshot
    rw [same]
    rfl
  obtain ⟨st,collected,counted⟩ := done {db.checkpoint p.sourceId p.initialWatermark with snapshots} ⟨row,here,rfl,rfl⟩
  have frame := (collect_staged collected).1.frame
  obtain ⟨reached,overlap⟩ := readable st.maximum
  have closed : ∃ n next, st.queue.finishSnapshot p.snapshotId true st.pages (some st.maximum) (some st.maximum)
      (some (queryFingerprint lib p.sourceId reached)) st.etag none p.finishedAt = .ok (n,next) := by
    have found : st.queue.snapshots.get p.snapshotId = some row := by
      rw [frame]
      exact here
    have kept : st.queue.checkpoints.get p.sourceId ≠ none := by
      rw [frame]
      change (db.checkpoint p.sourceId p.initialWatermark).checkpoints.get p.sourceId ≠ none
      rw [checkpoint_own]
      simp
    simp only [Queue.finishSnapshot,found,fetch,bind,Except.bind,require,row,if_true,kept,ne_eq,not_false_eq_true,
      pure,Except.pure]
    exact ⟨_,_,rfl⟩
  obtain ⟨n,next,finished⟩ := closed
  refine ⟨⟨p.sourceId,true,st.pages,n,st.maximum,none⟩,⟨next,?_⟩,rfl,counted⟩
  unfold pollSource
  rw [if_neg (by simpa using known)]
  dsimp only
  rw [asked]
  dsimp only
  rw [begun]
  dsimp only
  rw [collected]
  dsimp only
  rw [conclude,overlap]
  dsimp only
  rw [finished]

theorem fetchPage_plain (issues : endsWith g.sourceId "issues") {n k : Nat} {query : String} {cursor : Option String}
    (number : GitHubSource.pageNumber cursor = .ok k) (answers : h.refuses n = none)
    (plain : ∀ x ∈ (h.remote n).slice query k, ∀ pull, Json.get (x.raw g.sourceId) "pull_request" ≠ .obj pull) :
    g.fetchPage lib (h.transport g.sourceId n) query cursor =
      .ok ⟨((h.remote n).slice query k).map (RemoteItem.raw g.sourceId),
        if ((h.remote n).slice query k).length = 100 then some (toString (k + 1)) else none,none⟩ := by
  have called (endpoint : String) : h.transport g.sourceId n 0 endpoint (GitHubSource.issueFields k query) =
      .ok (.arr (((h.remote n).slice query k).map (fun x => .obj (x.raw g.sourceId)))) := by
    simp only [History.transport,answers,Remote.answer]
    change Except.ok (Json.arr (((h.remote n).slice query (decimal (toString k).toList)).map _)) = _
    rw [decimal_toString]
  have completed (api : Nat → Transport) (i : Nat) (xs : List RemoteItem)
      (plain : ∀ x ∈ xs, ∀ pull, Json.get (x.raw g.sourceId) "pull_request" ≠ .obj pull) :
      GitHubSource.complete (g.completeIssue lib) api i (xs.map (RemoteItem.raw g.sourceId)) =
        .ok (xs.map (RemoteItem.raw g.sourceId)) := by
    induction xs generalizing i with
    | nil => rfl
    | cons x rest ih =>
      have none_ : g.pullRequest lib (api i) (x.raw g.sourceId) = .ok none := by
        unfold GitHubSource.pullRequest
        split
        next pull found => exact absurd found (plain x List.mem_cons_self pull)
        next => rfl
      have later := ih (i + 1) (fun y inside => plain y (List.mem_cons_of_mem _ inside))
      simp only [List.map_cons,GitHubSource.complete,GitHubSource.completeIssue,none_,later,bind,Except.bind,pure,
        Except.pure,Option.elim_none,Option.toList_some,List.singleton_append]
  have read : g.readPage lib (h.transport g.sourceId n) query k =
      .ok (((h.remote n).slice query k).map (RemoteItem.raw g.sourceId),
        ((h.remote n).slice query k).map (RemoteItem.raw g.sourceId)) := by
    unfold GitHubSource.readPage
    rw [if_pos issues,called]
    simp only [bind,Except.bind,GitHubSource.objects_raw,fetch,completed _ _ _ plain,pure,Except.pure]
  unfold GitHubSource.fetchPage
  rw [number]
  simp only [bind,Except.bind,read,pure,Except.pure,List.length_map]

/-! A backlog of 101 issues. The first is updated once the first page is read, and the last moves onto it. -/

theorem integral_nil : integral [] := by
  intro name _ has
  obtain ⟨field,member,_⟩ := has
  cases member

def oldIssue (n : Nat) : RemoteItem := ⟨n,"2026-01-01T00:30:00Z",[],by decide,integral_nil⟩

def lateIssue : RemoteItem := ⟨101,"2026-01-01T00:45:00Z",[],by decide,integral_nil⟩

def updatedIssue : RemoteItem := ⟨1,"2026-01-01T01:00:00Z",[],by decide,integral_nil⟩

def backlog : Remote where
  items := (List.range 100).map (fun i => oldIssue (i + 1)) ++ [lateIssue]
  sorted := by
    rw [List.pairwise_append]
    refine ⟨?_,List.pairwise_singleton _ _,?_⟩
    · rw [List.pairwise_map]
      exact List.pairwise_of_forall (fun _ _ => le_refl _)
    · intro a inside b last
      obtain ⟨i,_,rfl⟩ := List.mem_map.mp inside
      rw [List.mem_singleton.mp last]
      change "2026-01-01T00:30:00Z" ≤ "2026-01-01T00:45:00Z"
      decide
  distinct := by decide +kernel

def busyHistory : History where
  start := backlog
  touches n := if n = 0 then [updatedIssue] else []
  refuses _ := none
  lookup _ _ _ _ := .error ⟨"SourceError","gh: Not Found (HTTP 404)"⟩

def quietHistory : History := {busyHistory with touches := fun _ => []}

def issues : GitHubSource := ⟨"org-issues","example/org"⟩

/-- Every other text is read as the watermark the polls end with. -/
def morning : PollLibrary := {newYear with
  fromisoformat := fun text =>
    if text = "2026-01-01T00:00:00+00:00" then some ⟨⟨63902822400 * 1000000,midnight_bounded⟩,some 0⟩
    else some ⟨⟨63902826000 * 1000000,oneOClock_bounded⟩,some 0⟩}

def backlogPoll (h : History) : Poll := {issuePoll with source := h.source morning issues,fuel := 2}

def midnightQuery : String := "2025-12-31T23:55:00Z"

theorem lateIssue_steady (h : History) (start : h.start = backlog)
    (others : ∀ n, ∀ y ∈ h.touches n, y.key ≠ 101) : h.Steady midnightQuery 1 lateIssue := by
  refine ⟨?_,by decide,fun n _ => others n⟩
  rw [start]
  exact List.mem_append_right _ (List.mem_singleton_self _)

theorem backlog_asked (h : History) :
    overlapWatermark morning ((backlogPoll h).checkpointRow Queue.empty).watermark overlapSeconds =
      .ok midnightQuery := by
  have text : (overlapWatermark morning "2026-01-01T00:00:00Z" overlapSeconds).toOption = some midnightQuery := by decide
  change overlapWatermark morning "2026-01-01T00:00:00Z" overlapSeconds = _
  cases asked : overlapWatermark morning "2026-01-01T00:00:00Z" overlapSeconds with
  | error e =>
    rw [asked] at text
    contradiction
  | ok query =>
    rw [asked] at text
    rw [Option.some.inj text]

theorem morning_readable (text : String) : ∃ next, overlapWatermark morning text overlapSeconds = .ok next := by
  have either (text : String) : morning.fromisoformat text = some ⟨⟨63902822400 * 1000000,midnight_bounded⟩,some 0⟩ ∨
      morning.fromisoformat text = some ⟨⟨63902826000 * 1000000,oneOClock_bounded⟩,some 0⟩ := by
    change (if text = "2026-01-01T00:00:00+00:00" then _ else _) = _ ∨ (if _ then _ else _) = _
    split
    next => exact .inl rfl
    next => exact .inr rfl
  unfold overlapWatermark
  dsimp only
  rcases either (String.ofList (text.toList.flatMap (fun c => if c = 'Z' then "+00:00".toList else [c]))) with read | read
  · rw [read]
    exact ⟨_,rfl⟩
  · rw [read]
    exact ⟨_,rfl⟩

theorem morning_collisionFree : Function.Injective morning.uuid5 := newYear_collisionFree

theorem backlog_returns (h : History) (answers : ∀ n, h.refuses n = none)
    (bare : ∀ n ≤ 1, ∀ x ∈ (h.remote n).items, x.rest = [])
    (full : ((h.remote 0).slice midnightQuery 1).length = 100)
    (short : ((h.remote 1).slice midnightQuery 2).length = 1) :
    ∃ result, Returns morning Queue.empty (backlogPoll h) result ∧ result.complete = true ∧ result.pageCount = 2 := by
  refine returns_of_collect (by decide : "org-issues" ∈ sourceIds) (backlog_asked h) rfl ?_ morning_readable
  intro begun open_
  let pages (n : Nat) : Page := ⟨((h.remote n).slice midnightQuery (n + 1)).map (RemoteItem.raw "org-issues"),
    if ((h.remote n).slice midnightQuery (n + 1)).length = 100 then some (toString (n + 1 + 1)) else none,none⟩
  let cursors (n : Nat) : Option String := if n = 0 then none else some "2"
  have plain (n : Nat) (bound : n ≤ 1) : ∀ x ∈ (h.remote n).slice midnightQuery (n + 1), ∀ pull,
      Json.get (x.raw "org-issues") "pull_request" ≠ .obj pull := by
    intro x present pull found
    have listed := (Remote.mem_listed.mp (List.mem_of_mem_drop (List.mem_of_mem_take present))).1
    have keyed : RemoteItem.keyField "org-issues" = "number" := by decide
    simp [RemoteItem.raw,bare n bound x listed,Json.get,keyed] at found
  have cursor (n : Nat) (bound : n ≤ 1) : GitHubSource.pageNumber (cursors n) = .ok (n + 1) := by
    rcases Nat.le_one_iff_eq_zero_or_eq_one.mp bound with rfl | rfl <;> rfl
  refine @collect_succeeds morning (backlogPoll h) midnightQuery _ pages cursors 1 ?_ ?_ ?_ ?_ (backlogPoll h).fuel
    ⟨begun,0,_,none⟩ ?_ ?_ ?_
  · intro n bound etag
    exact fetchPage_plain (by decide : endsWith issues.sourceId "issues") (cursor n bound) (answers n) (plain n bound)
  · intro n bound item inside
    obtain ⟨x,_,rfl⟩ := List.mem_map.mp inside
    exact ⟨_,_,_,GitHubSource.raw_identity morning (.inl (by decide) : issues.Listing) x,x.dated⟩
  · intro n less
    obtain rfl : n = 0 := by omega
    exact ⟨"2",if_pos full,rfl⟩
  · have partial_ : ((h.remote 1).slice midnightQuery 2).length ≠ 100 := by omega
    exact if_neg partial_
  · exact open_
  · exact Nat.zero_le 1
  · exact (by decide : 1 < 0 + 2)

theorem mem_touch_cases {r : Remote} {t x : RemoteItem} (member : x ∈ (r.touch t).items) : x ∈ r.items ∨ x = t := by
  unfold Remote.touch at member
  split at member
  next =>
    rcases List.mem_append.mp member with old | new
    · exact .inl (List.mem_of_mem_filter old)
    · exact .inr (List.mem_singleton.mp new)
  next => exact .inl member

theorem backlog_bare : ∀ x ∈ backlog.items, x.rest = [] := by
  intro x member
  rcases List.mem_append.mp member with old | last
  · obtain ⟨i,_,rfl⟩ := List.mem_map.mp old
    rfl
  · rw [List.mem_singleton.mp last]
    rfl

/-- Nothing is updated: every issue is published. -/
theorem pagination_complete_quiet :
    quietHistory.Steady midnightQuery 1 lateIssue ∧ ∀ x, quietHistory.Steady midnightQuery 1 x →
      Observed "org-issues" x (step morning Queue.empty (backlogPoll quietHistory)) := by
  have same (n : Nat) : quietHistory.remote n = backlog := by
    induction n with
    | zero => rfl
    | succ n ih =>
      change ([] : List RemoteItem).foldl Remote.touch (quietHistory.remote n) = backlog
      rw [List.foldl_nil,ih]
  obtain ⟨result,returned,complete,count⟩ := backlog_returns quietHistory (fun _ => rfl)
    (fun n _ x member => backlog_bare x (same n ▸ member)) (by decide +kernel) (by decide +kernel)
  have settled := pagination_complete_iff morning morning_collisionFree [] (by simp) (by intro t member; cases member)
    issues (.inl (by decide)) quietHistory (backlogPoll quietHistory) rfl rfl result returned complete midnightQuery
    (backlog_asked quietHistory)
  rw [count] at settled
  refine ⟨lateIssue_steady quietHistory rfl (fun _ _ inside => by cases inside),settled.mpr ?_⟩
  rintro x steady _ n less ⟨ahead,behind⟩
  have still : quietHistory.position midnightQuery x (n + 1) = quietHistory.position midnightQuery x n := by
    simp only [History.position,same]
  omega

/-- The last of 101 issues is neither updated nor published. -/
theorem unread_issue_lost :
    ∃ result, Returns morning Queue.empty (backlogPoll busyHistory) result ∧ result.complete = true ∧
      busyHistory.Steady midnightQuery (result.pageCount - 1) lateIssue ∧
      overlapWatermark morning ((backlogPoll busyHistory).checkpointRow Queue.empty).watermark overlapSeconds =
        .ok midnightQuery ∧
      ¬ Observed "org-issues" lateIssue (step morning Queue.empty (backlogPoll busyHistory)) := by
  have bare : ∀ n ≤ 1, ∀ x ∈ (busyHistory.remote n).items, x.rest = [] := by
    intro n bound x member
    rcases Nat.le_one_iff_eq_zero_or_eq_one.mp bound with rfl | rfl
    · exact backlog_bare x member
    · have second : busyHistory.remote 1 = backlog.touch updatedIssue := by
        change (if (0 : ℕ) = 0 then [updatedIssue] else []).foldl Remote.touch backlog = _
        rw [if_pos rfl,List.foldl_cons,List.foldl_nil]
      rw [second] at member
      rcases mem_touch_cases member with old | rfl
      · exact backlog_bare x old
      · rfl
  obtain ⟨result,returned,complete,count⟩ := backlog_returns busyHistory (fun _ => rfl) bare (by decide +kernel)
    (by decide +kernel)
  have steady : busyHistory.Steady midnightQuery 1 lateIssue := by
    apply lateIssue_steady busyHistory rfl
    intro n y inside
    change y ∈ (if n = 0 then [updatedIssue] else []) at inside
    split at inside
    next =>
      rw [List.mem_singleton.mp inside]
      decide
    next => cases inside
  refine ⟨result,returned,complete,?_,backlog_asked busyHistory,?_⟩
  · rw [count]
    exact steady
  · have crossed : crosses 100 (busyHistory.position midnightQuery lateIssue) 0 := by
      unfold crosses
      decide +kernel
    rw [show "org-issues" = issues.sourceId from rfl,steady_observed_iff morning_collisionFree sound_empty
      (.inl (by decide)) rfl rfl returned complete (backlog_asked busyHistory) (by rw [count]; exact steady),count]
    intro either
    rcases either with ⟨r,member,_⟩ | never
    · cases member
    · exact never 0 (by decide) crossed

end Poll
end SjgControl
