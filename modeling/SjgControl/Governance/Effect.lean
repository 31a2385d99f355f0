import SjgControl.Governance.Planning

/-! What the calls of a sync make of the board. -/
namespace SjgControl
open Relational PythonText Backend Board

/-- Changes that give an item a state and touch nothing else that the monitor reads. -/
structure Restating (changes : Fields) (b : Bool) : Prop where
  given : Json.has changes "state"
  state : Json.get changes "state" = .str (if b then "open" else "closed")
  others : ∀ name ∈ ["number","id","title","body","pull_request","draft","mergeable","mergeable_state"], ¬ Json.has changes name

namespace GovernanceMonitor
variable {g : GovernanceMonitor} {lib : MonitorLibrary} {remote : GitHub} {slug : String} {queue : Int}
  {blocked : List DesiredQueueItem}

theorem edited_get {changes : Fields} {name : String} (free : ¬ Json.has changes name) (m : Int) (item : Fields) :
    Json.get (GitHub.edited m changes item) name = Json.get item name := by
  unfold GitHub.edited
  split
  next =>
    split
    next => rw [Json.get_append,if_neg free]
    next => rfl
  next => rfl

theorem isOpen_edited {changes : Fields} {b : Bool} (restating : Restating changes b) {n m : Int} {item : Fields}
    (own : numberOf item = some m) : isOpen (GitHub.edited n changes item) = if m = n then b else isOpen item := by
  unfold isOpen GitHub.edited
  rw [get_of_numberOf own]
  split
  next k same =>
    cases same
    split
    next =>
      rw [Json.get_append,if_pos restating.given,restating.state]
      cases b <;> rfl
    next => rfl
  next other => exact absurd rfl (other m)

theorem cardOf_eq {item other : Fields} (number : Json.get item "number" = Json.get other "number")
    (id : Json.get item "id" = Json.get other "id") (title : Json.get item "title" = Json.get other "title")
    (body : Json.get item "body" = Json.get other "body") (pull : isPull item = isPull other) :
    cardOf lib item = {cardOf lib other with opened := isOpen item} := by
  unfold cardOf numberOf idOf sourceOf bodyOf isProposal textArgument
  rw [number,id,title,body,pull]

theorem setCard_eq {n m : Int} {b : Bool} {item other : Fields} (own : numberOf other = some m)
    (shows : cardOf lib item = {cardOf lib other with opened := isOpen item})
    (state : isOpen item = if m = n then b else isOpen other) : cardOf lib item = setCard n b (cardOf lib other) := by
  have number := @cardOf_number lib other m own
  unfold setCard
  rw [shows,state]
  by_cases same : m = n
  · rw [if_pos same,if_pos (number.trans same)]
  · rw [if_neg same,if_neg (number ▸ same)]
    rfl

theorem cardOf_edited {changes : Fields} {b : Bool} (restating : Restating changes b) {n m : Int} {item : Fields}
    (own : numberOf item = some m) : cardOf lib (GitHub.edited n changes item) = setCard n b (cardOf lib item) := by
  have kept {name : String} (listed : name ∈ ["number","id","title","body","pull_request","draft","mergeable","mergeable_state"]) :
      Json.get (GitHub.edited n changes item) name = Json.get item name := edited_get (restating.others name listed) n item
  refine setCard_eq own (cardOf_eq (kept (by decide)) (kept (by decide)) (kept (by decide)) (kept (by decide)) ?_) ?_
  · unfold isPull
    rw [kept (by decide)]
  · exact isOpen_edited restating own

theorem cardOf_edited_pull {changes : Fields} {b : Bool} (restating : Restating changes b) {n m : Int} {pull : Fields}
    (own : numberOf pull = some m) :
    cardOf lib (GitHub.asIssue (GitHub.edited n changes pull)) = setCard n b (cardOf lib (GitHub.asIssue pull)) := by
  have kept {name : String} (listed : name ∈ ["number","id","title","body","draft","mergeable","mergeable_state"])
      (other : name ≠ "pull_request") :
      Json.get (GitHub.asIssue (GitHub.edited n changes pull)) name = Json.get (GitHub.asIssue pull) name := by
    rw [QueueRun.asIssue_get other,QueueRun.asIssue_get other]
    refine edited_get (restating.others name ?_) n pull
    simp only [List.mem_cons,List.not_mem_nil,or_false] at listed ⊢
    tauto
  have opened (item : Fields) : isOpen (GitHub.asIssue item) = isOpen item := by
    unfold isOpen
    rw [QueueRun.asIssue_get (by decide)]
  have number : numberOf (GitHub.asIssue pull) = some m := by
    rw [numberOf_congr (QueueRun.asIssue_get (by decide)),own]
  refine setCard_eq number (cardOf_eq (kept (by decide) (by decide)) (kept (by decide) (by decide))
    (kept (by decide) (by decide)) (kept (by decide) (by decide)) rfl) ?_
  rw [opened,opened,isOpen_edited restating own]

theorem pullOf_edited {changes : Fields} {b : Bool} (restating : Restating changes b) {n m : Int} {alias_ : String}
    {pull : Fields} (own : numberOf pull = some m) :
    pullOf alias_ (GitHub.edited n changes pull) = if m = n then {pullOf alias_ pull with opened := b} else pullOf alias_ pull := by
  have kept {name : String} (listed : name ∈ ["number","id","title","body","pull_request","draft","mergeable","mergeable_state"]) :
      Json.get (GitHub.edited n changes pull) name = Json.get pull name := edited_get (restating.others name listed) n pull
  have number : numberOf (GitHub.edited n changes pull) = some m := by
    rw [numberOf_congr (kept (by decide)),own]
  have ready : isReady (GitHub.edited n changes pull) = isReady pull := by
    unfold isReady
    rw [kept (by decide),kept (by decide),kept (by decide)]
  unfold pullOf
  rw [number,own,ready,kept (by decide),isOpen_edited restating own]
  split
  next => rfl
  next => rfl

def homeOf (g : GovernanceMonitor) (slug : String) (alias_ : String) : Bool :=
  decide ((lookup g.backend.repositories alias_).map Repository.slug = some slug)

theorem patched_listed (remote : GitHub) (slug : String) (n : Int) (changes : Fields) (s : String) :
    (patched remote slug n changes).listedIssues s = if s = slug then
      (remote.issues s).map (GitHub.edited n changes) ++ (remote.pulls s).map (fun pull => GitHub.asIssue (GitHub.edited n changes pull))
      else remote.listedIssues s := by
  have issues : (patched remote slug n changes).issues s = if s = slug then (remote.issues s).map (GitHub.edited n changes)
      else remote.issues s := rfl
  have pulls : (patched remote slug n changes).pulls s = if s = slug then (remote.pulls s).map (GitHub.edited n changes)
      else remote.pulls s := rfl
  unfold GitHub.listedIssues
  rw [issues,pulls]
  split
  next => rw [List.map_map]; rfl
  next => rfl

theorem listed_numbered (ids : Identified remote slug) : (∀ issue ∈ remote.issues slug, ∃ n, numberOf issue = some n) ∧
    ∀ pull ∈ remote.pulls slug, ∃ n, numberOf pull = some n := by
  constructor
  · intro issue member
    obtain ⟨n,_,own⟩ := ids.numbered issue (QueueRun.mem_listed.mpr (.inl member))
    exact ⟨n,own⟩
  · intro pull member
    obtain ⟨n,_,own⟩ := pull_numbered ids member
    exact ⟨n,own⟩

theorem board_patched (ids : Identified remote slug) {changes : Fields} {b : Bool} (restating : Restating changes b) (n : Int) :
    Moved (g.homeOf slug) n b [] (g.boardOf lib remote slug queue blocked)
      (g.boardOf lib (patched remote slug n changes) slug queue blocked) where
  blocked := rfl
  cards := by
    obtain ⟨issues,pulls⟩ := listed_numbered ids
    change ((patched remote slug n changes).listedIssues slug).map (cardOf lib) =
      ((remote.listedIssues slug).map (cardOf lib)).map (setCard n b)
    rw [patched_listed,if_pos rfl]
    unfold GitHub.listedIssues
    simp only [List.map_append,List.map_map]
    congr 1
    · refine List.map_congr_left (fun issue member => ?_)
      obtain ⟨m,own⟩ := issues issue member
      exact cardOf_edited restating own
    · refine List.map_congr_left (fun pull member => ?_)
      obtain ⟨m,own⟩ := pulls pull member
      exact cardOf_edited_pull restating own
  pulls := by
    obtain ⟨_,pulls⟩ := listed_numbered ids
    change g.aliases.flatMap (g.pullsOf (patched remote slug n changes)) =
      (g.aliases.flatMap (g.pullsOf remote)).map (setPull (g.homeOf slug) n b)
    rw [List.map_flatMap]
    congr 1
    funext alias_
    unfold pullsOf
    cases known : lookup g.backend.repositories alias_ with
    | none => rfl
    | some repo =>
      have home : g.homeOf slug alias_ = decide (repo.slug = slug) := by
        unfold homeOf
        rw [known]
        simp
      simp only [patched,GitHub.editAt,List.map_map]
      by_cases same : repo.slug = slug
      · rw [if_pos same,List.map_map]
        refine List.map_congr_left (fun pull member => ?_)
        obtain ⟨m,own⟩ := pulls pull (same ▸ member)
        have number : (pullOf alias_ pull).number = m := by
          unfold pullOf
          rw [own]
          rfl
        change pullOf alias_ (GitHub.edited n changes pull) = setPull (g.homeOf slug) n b (pullOf alias_ pull)
        unfold setPull
        rw [pullOf_edited restating own]
        have here : g.homeOf slug (pullOf alias_ pull).alias_ = true := by
          change g.homeOf slug alias_ = true
          rw [home]
          exact decide_eq_true same
        by_cases due : m = n
        · rw [if_pos due,if_pos ⟨here,number.trans due⟩]
        · rw [if_neg due,if_neg (fun both => due (number.symm.trans both.2))]
      · rw [if_neg same]
        refine List.map_congr_left (fun pull _ => ?_)
        have away : g.homeOf slug (pullOf alias_ pull).alias_ = false := by
          change g.homeOf slug alias_ = false
          rw [home]
          exact decide_eq_false same
        simp [setPull,away]
  attached id := by
    change id ∈ attachedTo remote slug queue ↔ id ∈ attachedTo remote slug queue ∨ id ∈ []
    simp

theorem map_same {α : Type} {items : List α} {f : α → α} (same : ∀ x ∈ items, f x = x) : items.map f = items :=
  (List.map_congr_left same).trans (List.map_id items)

theorem board_open (ids : Identified remote slug) {issue : Fields} (listed : issue ∈ remote.listedIssues slug) {n : Int}
    (own : numberOf issue = some n) (opened : isOpen issue = true) :
    Moved (g.homeOf slug) n true [] (g.boardOf lib remote slug queue blocked) (g.boardOf lib remote slug queue blocked) where
  blocked := rfl
  cards := by
    refine (map_same ?_).symm
    change ∀ c ∈ (remote.listedIssues slug).map (cardOf lib), setCard n true c = c
    rw [List.forall_mem_map]
    intro other present
    obtain ⟨m,_,number⟩ := ids.numbered other present
    unfold setCard
    split
    next same =>
      rw [cardOf_number number] at same
      cases same
      rw [ids.same_number present listed (number.trans own.symm)]
      unfold cardOf
      rw [opened]
    next => rfl
  pulls := by
    refine (map_same ?_).symm
    intro p member
    obtain ⟨alias_,_,inside⟩ := List.mem_flatMap.mp member
    unfold pullsOf at inside
    cases known : lookup g.backend.repositories alias_ with
    | none =>
      rw [known] at inside
      cases inside
    | some repo =>
      rw [known] at inside
      obtain ⟨pull,there,rfl⟩ := List.mem_map.mp inside
      unfold setPull
      split
      next both =>
        obtain ⟨home,same⟩ := both
        have slugs : repo.slug = slug := by
          have given := of_decide_eq_true home
          change (lookup g.backend.repositories alias_).map Repository.slug = some slug at given
          rw [known] at given
          exact Option.some.inj given
        rw [slugs] at there
        obtain ⟨m,_,number⟩ := pull_numbered ids there
        have named : (pullOf alias_ pull).number = m := by
          unfold pullOf
          rw [number]
          rfl
        have whole : GitHub.asIssue pull = issue := by
          refine ids.same_number (pull_listed there) listed ?_
          rw [numberOf_congr (QueueRun.asIssue_get (by decide)),number,own,← named,same]
        have state : isOpen pull = true := by
          rw [← whole] at opened
          unfold isOpen at opened ⊢
          rwa [QueueRun.asIssue_get (by decide)] at opened
        unfold pullOf
        rw [state]
      next => rfl
  attached id := by
    change id ∈ attachedTo remote slug queue ↔ id ∈ attachedTo remote slug queue ∨ id ∈ []
    simp

def linked (remote : GitHub) (slug : String) (queue id : Int) : GitHub :=
  {remote with links := remote.links ++ [(slug,queue,.int id)]}

theorem attached_linked (remote : GitHub) (slug : String) (queue id m : Int) :
    m ∈ attachedTo (linked remote slug queue id) slug queue ↔ m ∈ attachedTo remote slug queue ∨ m = id := by
  simp only [mem_attachedTo,linked,List.mem_append,List.mem_singleton]
  constructor
  · rintro ⟨link,old | rfl,at_,number,value⟩
    · exact .inl ⟨link,old,at_,number,value⟩
    · cases value
      exact .inr rfl
  · rintro (⟨link,old,own⟩ | rfl)
    · exact ⟨link,.inl old,own⟩
    · exact ⟨_,.inr rfl,rfl,rfl,rfl⟩

theorem board_linked (id : Int) {w : Board} {home : String → Bool} {n : Int} {b : Bool} {links : List Int}
    (moved : Moved home n b links w (g.boardOf lib remote slug queue blocked)) :
    Moved home n b (links ++ [id]) w (g.boardOf lib (linked remote slug queue id) slug queue blocked) where
  blocked := moved.blocked
  cards := moved.cards
  pulls := moved.pulls
  attached m := by
    change m ∈ attachedTo (linked remote slug queue id) slug queue ↔ _
    rw [attached_linked,List.mem_append,List.mem_singleton,← or_assoc]
    exact or_congr (moved.attached m) Iff.rfl

theorem board_posted (item : Fields) {id : Int} (own : idOf item = some id) :
    Posted (cardOf lib item) (g.boardOf lib remote slug queue blocked)
      (g.boardOf lib (linked (remote.addIssue slug item) slug queue id) slug queue blocked) where
  blocked := rfl
  cards y := by
    change y ∈ ((remote.addIssue slug item).listedIssues slug).map (cardOf lib) ↔
      y ∈ (remote.listedIssues slug).map (cardOf lib) ∨ _
    have lists : (remote.addIssue slug item).listedIssues slug =
        remote.issues slug ++ [item] ++ (remote.pulls slug).map GitHub.asIssue := by
      have issues : (remote.addIssue slug item).issues slug = remote.issues slug ++ [item] := if_pos rfl
      unfold GitHub.listedIssues
      rw [issues]
      rfl
    rw [lists]
    unfold GitHub.listedIssues
    simp only [List.map_append,List.mem_append,List.map_singleton,List.mem_singleton]
    tauto
  pulls := rfl
  attached m := by
    change m ∈ attachedTo (linked (remote.addIssue slug item) slug queue id) slug queue ↔ _
    rw [attached_linked]
    unfold cardOf
    rw [own]
    rfl

/-! The items stay identified. -/

theorem Identified.of_maps (ids : Identified remote slug) {after : GitHub}
    (numbers : (after.listedIssues slug).map numberOf = (remote.listedIssues slug).map numberOf)
    (idents : (after.listedIssues slug).map idOf = (remote.listedIssues slug).map idOf) : Identified after slug where
  numbered item member := by
    have listed : numberOf item ∈ (remote.listedIssues slug).map numberOf := numbers ▸ List.mem_map_of_mem member
    obtain ⟨old,present,same⟩ := List.mem_map.mp listed
    obtain ⟨n,positive,own⟩ := ids.numbered old present
    exact ⟨n,positive,same.symm.trans own⟩
  identified item member := by
    have listed : idOf item ∈ (remote.listedIssues slug).map idOf := idents ▸ List.mem_map_of_mem member
    obtain ⟨old,present,same⟩ := List.mem_map.mp listed
    obtain ⟨id,own⟩ := ids.identified old present
    exact ⟨id,same.symm.trans own⟩
  numbers := numbers ▸ ids.numbers
  ids := idents ▸ ids.ids

theorem patched_map {α : Type} (f : Fields → α) {n : Int} {changes : Fields}
    (issues : ∀ item, f (GitHub.edited n changes item) = f item)
    (pulls : ∀ item, f (GitHub.asIssue (GitHub.edited n changes item)) = f (GitHub.asIssue item)) (remote : GitHub)
    (slug s : String) : ((patched remote slug n changes).listedIssues s).map f = (remote.listedIssues s).map f := by
  rw [patched_listed]
  split
  next =>
    unfold GitHub.listedIssues
    simp only [List.map_append,List.map_map]
    congr 1
    · exact List.map_congr_left (fun item _ => issues item)
    · exact List.map_congr_left (fun item _ => pulls item)
  next => rfl

theorem idOf_congr {item other : Fields} (same : Json.get item "id" = Json.get other "id") : idOf item = idOf other := by
  unfold idOf
  rw [same]

theorem Sound.patched (sound : g.Sound remote) {n : Int} {changes : Fields} {b : Bool} (restating : Restating changes b)
    (slug : String) : g.Sound (patched remote slug n changes) where
  aliases := sound.aliases
  identified alias_ repo known := by
    have kept (item : Fields) {name : String} (free : ¬ Json.has changes name) :
        Json.get (GitHub.edited n changes item) name = Json.get item name := edited_get free n item
    have numbers := restating.others "number" (by decide)
    have idents := restating.others "id" (by decide)
    refine Identified.of_maps (sound.identified alias_ repo known) ?_ ?_
    · refine patched_map numberOf (fun item => numberOf_congr (kept item numbers)) (fun item => ?_) remote slug repo.slug
      rw [numberOf_congr (QueueRun.asIssue_get (by decide)),numberOf_congr (QueueRun.asIssue_get (by decide))]
      exact numberOf_congr (kept item numbers)
    · refine patched_map idOf (fun item => idOf_congr (kept item idents)) (fun item => ?_) remote slug repo.slug
      rw [idOf_congr (QueueRun.asIssue_get (by decide)),idOf_congr (QueueRun.asIssue_get (by decide))]
      exact idOf_congr (kept item idents)

theorem Sound.linked (sound : g.Sound remote) (slug : String) (queue id : Int) : g.Sound (linked remote slug queue id) where
  aliases := sound.aliases
  identified alias_ repo known := Identified.of_maps (sound.identified alias_ repo known) rfl rfl

theorem posted_perm (remote : GitHub) (slug : String) (item : Fields) (s : String) :
    ((remote.addIssue slug item).listedIssues s).Perm
      (if s = slug then item::remote.listedIssues s else remote.listedIssues s) := by
  have issues : (remote.addIssue slug item).issues s = if s = slug then remote.issues s ++ [item] else remote.issues s := rfl
  unfold GitHub.listedIssues
  rw [issues]
  split
  next =>
    rw [List.append_assoc,List.singleton_append]
    exact List.perm_middle
  next => exact List.Perm.refl _

theorem Sound.posted (sound : g.Sound remote) {item : Fields} {n id : Int} (own : numberOf item = some n) (positive : 0 < n)
    (ident : idOf item = some id) (number : ∀ other ∈ remote.listedIssues slug, numberOf other ≠ some n)
    (fresh : ∀ other ∈ remote.listedIssues slug, idOf other ≠ some id) : g.Sound (remote.addIssue slug item) where
  aliases := sound.aliases
  identified alias_ repo known := by
    have ids := sound.identified alias_ repo known
    have perm := posted_perm remote slug item repo.slug
    split at perm
    next here =>
      constructor
      · intro other member
        rcases List.mem_cons.mp (perm.mem_iff.mp member) with rfl | old
        · exact ⟨n,positive,own⟩
        · exact ids.numbered other old
      · intro other member
        rcases List.mem_cons.mp (perm.mem_iff.mp member) with rfl | old
        · exact ⟨id,ident⟩
        · exact ids.identified other old
      · rw [(perm.map numberOf).nodup_iff,List.map_cons,List.nodup_cons]
        refine ⟨?_,ids.numbers⟩
        intro again
        obtain ⟨other,listed,same⟩ := List.mem_map.mp again
        exact number other (here ▸ listed) (same.trans own)
      · rw [(perm.map idOf).nodup_iff,List.map_cons,List.nodup_cons]
        refine ⟨?_,ids.ids⟩
        intro again
        obtain ⟨other,listed,same⟩ := List.mem_map.mp again
        exact fresh other (here ▸ listed) (same.trans ident)
    next =>
      constructor
      · exact fun other member => ids.numbered other (perm.mem_iff.mp member)
      · exact fun other member => ids.identified other (perm.mem_iff.mp member)
      · exact (perm.map numberOf).nodup_iff.mpr ids.numbers
      · exact (perm.map idOf).nodup_iff.mpr ids.ids

/-! The board of identified items tells them apart. -/

theorem nodup_getD {items : List Fields} {f : Fields → Option Int} (given : ∀ item ∈ items, ∃ n, f item = some n)
    (apart : (items.map f).Nodup) : (items.map (fun item => (f item).getD 0)).Nodup := by
  refine List.Nodup.map_on ?_ (List.Nodup.of_map _ apart)
  intro item member other present same
  obtain ⟨n,own⟩ := given item member
  obtain ⟨m,number⟩ := given other present
  rw [own,number] at same
  refine List.inj_on_of_nodup_map apart member present ?_
  rw [own,number]
  exact congrArg some same

theorem pullsOf_numbers (sound : g.Sound remote) {alias_ : String} (listed : alias_ ∈ g.aliases) :
    ((g.pullsOf remote alias_).map PullCard.number).Nodup ∧ ∀ p ∈ g.pullsOf remote alias_, p.alias_ = alias_ ∧ 0 < p.number := by
  obtain ⟨repo,known⟩ := mem_aliases listed
  have ids := sound.identified alias_ repo known
  have shape : g.pullsOf remote alias_ = (remote.pulls repo.slug).map (pullOf alias_) := by
    unfold pullsOf
    rw [known]
  have asIssues : (remote.pulls repo.slug).map numberOf = ((remote.pulls repo.slug).map GitHub.asIssue).map numberOf := by
    rw [List.map_map]
    exact List.map_congr_left (fun pull _ => (numberOf_congr (QueueRun.asIssue_get (by decide))).symm)
  have apart : ((remote.pulls repo.slug).map numberOf).Nodup := by
    have whole := ids.numbers
    unfold GitHub.listedIssues at whole
    rw [List.map_append] at whole
    rw [asIssues]
    exact (List.nodup_append.mp whole).2.1
  rw [shape]
  constructor
  · rw [List.map_map]
    refine nodup_getD (fun pull member => ?_) apart
    obtain ⟨n,_,own⟩ := pull_numbered ids member
    exact ⟨n,own⟩
  · rw [List.forall_mem_map]
    intro pull member
    obtain ⟨n,positive,own⟩ := pull_numbered ids member
    refine ⟨rfl,?_⟩
    unfold pullOf
    rw [own]
    exact positive

theorem board_distinct (sound : g.Sound remote) (ids : Identified remote slug)
    (apart : (blocked.map DesiredQueueItem.sourceKey).Nodup) (called : ∀ item ∈ blocked, startsWith item.sourceKey "blocker:") :
    (g.boardOf lib remote slug queue blocked).Distinct where
  cards := by
    change (((remote.listedIssues slug).map (cardOf lib)).map Card.number).Nodup
    rw [List.map_map]
    refine nodup_getD (fun item member => ?_) ids.numbers
    obtain ⟨n,_,own⟩ := ids.numbered item member
    exact ⟨n,own⟩
  ids := by
    change (((remote.listedIssues slug).map (cardOf lib)).map Card.id).Nodup
    rw [List.map_map]
    exact nodup_getD ids.identified ids.ids
  pulls := by
    change ((g.aliases.flatMap (g.pullsOf remote)).map (fun p => (p.alias_,p.number))).Nodup
    rw [List.map_flatMap,List.nodup_flatMap]
    constructor
    · intro alias_ listed
      obtain ⟨numbers,_⟩ := pullsOf_numbers sound listed
      refine List.Nodup.of_map Prod.snd ?_
      rw [List.map_map]
      exact numbers
    · have aliases : g.aliases.Nodup := (List.perm_insertionSort _ _).nodup_iff.mpr sound.aliases
      refine List.Pairwise.imp_of_mem ?_ aliases
      intro one other listed present differ entry first second
      obtain ⟨p,member,rfl⟩ := List.mem_map.mp first
      obtain ⟨q,inside,same⟩ := List.mem_map.mp second
      have names := congrArg Prod.fst same
      rw [((pullsOf_numbers sound listed).2 p member).1,((pullsOf_numbers sound present).2 q inside).1] at names
      exact differ names.symm
  positive := by
    constructor
    · change ∀ c ∈ (remote.listedIssues slug).map (cardOf lib), 0 < c.number
      rw [List.forall_mem_map]
      intro item member
      obtain ⟨n,positive,own⟩ := ids.numbered item member
      rw [cardOf_number own]
      exact positive
    · intro p member
      obtain ⟨alias_,listed,inside⟩ := List.mem_flatMap.mp member
      exact ((pullsOf_numbers sound listed).2 p inside).2
  blocked := by
    refine ⟨apart,?_⟩
    change ∀ s ∈ blocked.map DesiredQueueItem.sourceKey, startsWith s "blocker:"
    rw [List.forall_mem_map]
    exact called

end GovernanceMonitor
end SjgControl
