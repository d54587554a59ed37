import ShishiTodo.Lib.Delimited
import ShishiTodo.Notifications.Delivery

/-!
# Action ids

The text that carries the target of a notification through the platform. Its parts stand between colons, and no part of a valid target holds one, so a text is the id of at most one target and a key belongs to one target only.
-/

namespace ShishiTodo.Notifications

open Lib

def actionPrefix : String := "shishi.task.v1:"

namespace NotificationTargetV1

def isValid (target : NotificationTargetV1) : Bool :=
  target.sourceVersion == 1 && validComponent target.accountId && validComponent target.taskId &&
    target.notificationId.all validComponent && target.accountId != target.taskId

/-- `then_some` of a target that is valid. -/
def validated (target : NotificationTargetV1) : Option NotificationTargetV1 :=
  if target.isValid then some target else none

def new (accountId taskId : String) : Option NotificationTargetV1 :=
  validated ⟨accountId, taskId, 1, none⟩

def newWithNotification (accountId taskId notificationId : String) : Option NotificationTargetV1 :=
  validated ⟨accountId, taskId, 1, some notificationId⟩

def encodeActionId (target : NotificationTargetV1) : String :=
  match target.notificationId with
  | some notificationId =>
      actionPrefix ++ target.accountId ++ ":" ++ target.taskId ++ ":" ++ notificationId
  | none => actionPrefix ++ target.accountId ++ ":" ++ target.taskId

/-- `splitn(3, ':')` cuts at the first two colons. -/
def parseActionId (value : String) : Option NotificationTargetV1 := do
  let rest ← actionPrefix.toList.isPrefixOf? value.toList
  let (accountId, rest) ← splitOnce ':' rest
  match splitOnce ':' rest with
  | some (taskId, notificationId) =>
      if ':' ∈ taskId then none
      else newWithNotification (.ofList accountId) (.ofList taskId) (.ofList notificationId)
  | none => if ':' ∈ rest then none else new (.ofList accountId) (.ofList rest)

end NotificationTargetV1

open NotificationTargetV1

theorem not_mem_of_validComponent {value : String} (h : validComponent value = true) : ':' ∉ value.toList := by
  intro hmem
  rw [validComponent, Bool.and_eq_true, List.all_eq_true] at h
  exact absurd (h.2 ':' hmem) (by decide)

/-- What the parts of a valid target are. -/
theorem isValid_iff {target : NotificationTargetV1} : target.isValid = true ↔
    target.sourceVersion = 1 ∧ validComponent target.accountId = true ∧
      validComponent target.taskId = true ∧
      (∀ notificationId, target.notificationId = some notificationId → validComponent notificationId = true) ∧
      target.accountId ≠ target.taskId := by
  simp only [isValid, Bool.and_eq_true, beq_iff_eq, bne_iff_ne, Option.all_eq_true, and_assoc]

theorem validated_eq_some_iff {target found : NotificationTargetV1} :
    target.validated = some found ↔ target.isValid = true ∧ target = found := by
  rw [validated, Option.ite_none_right_eq_some, Option.some.injEq]

/-- The characters of a key. -/
theorem targetKey_toList (target : NotificationTargetV1) : (targetKey target).toList =
    target.accountId.toList ++ ':' :: (target.taskId.toList ++
      (target.notificationId.elim [] fun notificationId => ':' :: notificationId.toList)) := by
  rw [targetKey]
  cases target.notificationId <;> simp

theorem encodeActionId_eq (target : NotificationTargetV1) :
    target.encodeActionId = actionPrefix ++ targetKey target := by
  rw [encodeActionId, targetKey]
  cases target.notificationId <;> simp only [String.append_assoc]

/-- An id of a valid target is cut where its parts end. -/
theorem parse_encode {target : NotificationTargetV1} (h : target.isValid = true) :
    parseActionId target.encodeActionId = some target := by
  obtain ⟨hversion, haccount, htask, -, -⟩ := isValid_iff.mp h
  have hprefix : actionPrefix.toList.isPrefixOf? target.encodeActionId.toList =
      some (targetKey target).toList := by
    rw [List.isPrefixOf?_eq_some_iff_append_eq, encodeActionId_eq, String.toList_append]
  obtain ⟨accountId, taskId, sourceVersion, notificationId⟩ := target
  obtain rfl : sourceVersion = 1 := hversion
  rw [parseActionId, hprefix, targetKey_toList]
  dsimp only [Option.bind_eq_bind, Option.bind_some]
  rw [splitOnce_append (not_mem_of_validComponent haccount)]
  dsimp only [Option.bind_some]
  cases notificationId with
  | none =>
      rw [Option.elim_none, List.append_nil, splitOnce_eq_none (not_mem_of_validComponent htask)]
      dsimp only
      rw [if_neg (not_mem_of_validComponent htask), String.ofList_toList, String.ofList_toList]
      exact validated_eq_some_iff.mpr ⟨h, rfl⟩
  | some notificationId =>
      rw [Option.elim_some, splitOnce_append (not_mem_of_validComponent htask)]
      dsimp only
      rw [if_neg (not_mem_of_validComponent htask), String.ofList_toList, String.ofList_toList,
        String.ofList_toList]
      exact validated_eq_some_iff.mpr ⟨h, rfl⟩

/-- A text that is read is the id of what it is read as. -/
theorem encode_parse {value : String} {target : NotificationTargetV1} (h : parseActionId value = some target) :
    target.isValid = true ∧ target.encodeActionId = value := by
  obtain ⟨key, hkey, hparts⟩ := Option.bind_eq_some_iff.mp h
  obtain ⟨⟨accountId, rest⟩, haccount, hread⟩ := Option.bind_eq_some_iff.mp hparts
  rw [List.isPrefixOf?_eq_some_iff_append_eq] at hkey
  obtain ⟨-, rfl⟩ := splitOnce_some haccount
  dsimp only at hread
  have hwhole : ∀ {found : NotificationTargetV1}, (targetKey found).toList = accountId ++ ':' :: rest →
      found.encodeActionId = value := by
    intro found hfound
    rw [encodeActionId_eq, ← String.toList_inj, String.toList_append, hfound, hkey]
  cases htask : splitOnce ':' rest with
  | none =>
      rw [htask] at hread
      dsimp only at hread
      split at hread
      · cases hread
      · obtain ⟨hvalid, rfl⟩ := validated_eq_some_iff.mp hread
        refine ⟨hvalid, hwhole ?_⟩
        rw [targetKey_toList, Option.elim_none, List.append_nil, String.toList_ofList, String.toList_ofList]
  | some parts =>
      obtain ⟨taskId, notificationId⟩ := parts
      rw [htask] at hread
      dsimp only at hread
      split at hread
      · cases hread
      · obtain ⟨hvalid, rfl⟩ := validated_eq_some_iff.mp hread
        obtain ⟨-, rfl⟩ := splitOnce_some htask
        refine ⟨hvalid, hwhole ?_⟩
        rw [targetKey_toList, Option.elim_some, String.toList_ofList, String.toList_ofList,
          String.toList_ofList]

/-- Two valid targets with one key are the same: the key is what their ids have behind the prefix. -/
theorem targetKey_injective {left right : NotificationTargetV1} (hleft : left.isValid = true)
    (hright : right.isValid = true) (h : targetKey left = targetKey right) : left = right := by
  have hids : left.encodeActionId = right.encodeActionId := by
    rw [encodeActionId_eq, encodeActionId_eq, h]
  exact Option.some.inj ((parse_encode hleft).symm.trans ((congrArg parseActionId hids).trans (parse_encode hright)))

/-- Action ids are read back as they were written, and nothing else is read; keys tell valid targets apart. -/
theorem action_ids_round_trip :
    (∀ target : NotificationTargetV1, target.isValid = true →
      parseActionId target.encodeActionId = some target) ∧
    (∀ (value : String) (target : NotificationTargetV1), parseActionId value = some target →
      target.isValid = true ∧ target.encodeActionId = value) ∧
    ∀ left right : NotificationTargetV1, left.isValid = true → right.isValid = true →
      targetKey left = targetKey right → left = right :=
  ⟨fun _ => parse_encode, fun _ _ => encode_parse, fun _ _ => targetKey_injective⟩

theorem reminder_id_read_back :
    parseActionId (encodeActionId ⟨"account-1", "task-1", 1, some "reminder-1"⟩) =
      some ⟨"account-1", "task-1", 1, some "reminder-1"⟩ :=
  action_ids_round_trip.1 ⟨"account-1", "task-1", 1, some "reminder-1"⟩ (by decide)

end ShishiTodo.Notifications
