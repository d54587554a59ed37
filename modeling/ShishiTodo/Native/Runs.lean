import ShishiTodo.Native.Store
import ShishiTodo.Lib.Machine

/-!
# Runs of local operations

What the application asks of the store, and the machine that takes one request after another. A request that fails is rolled back.
-/

namespace ShishiTodo.Native

open Lib

inductive LocalOp where
  | createList (input : NewList)
  | patchList (id : String) (patch : ListPatch)
  | deleteList (id : String)
  | restoreList (id : String)
  | createTask (input : NewTask)
  | patchTask (id : String) (patch : TaskPatch)
  | commitCompletion (taskId completedAt : String) (nextTask : Option Task)
  | deleteTask (id : String)
  | restoreTask (id : String)
  | reorderTask (id direction : String)
  | addToDay (taskId date : String)
  | removeFromDay (taskId date : String)
  | createStep (taskId title : String)
  | patchStep (id : String) (patch : StepPatch)
  | deleteStep (id : String)
  | importData (bundle : ExportBundle) (mode : ImportMode)

/-- The transaction of a request. -/
def LocalOp.perform (texts : Texts) (supply : Supply) (store : Store) : LocalOp → StoreResult Tx
  | .createList input => (Native.createList supply store input).map Prod.snd
  | .patchList id patch => (Native.patchList supply store id patch).map Prod.snd
  | .deleteList id => Native.deleteList supply store id
  | .restoreList id => Native.restoreList supply store id
  | .createTask input => (Native.createTask texts supply store input).map Prod.snd
  | .patchTask id patch => (Native.patchTask texts supply store id patch).map Prod.snd
  | .commitCompletion taskId completedAt nextTask =>
      (Native.commitCompletion texts supply store taskId completedAt nextTask).map Prod.snd
  | .deleteTask id => Native.deleteTask supply store id
  | .restoreTask id => Native.restoreTask supply store id
  | .reorderTask id direction => Native.reorderTask supply store id direction
  | .addToDay taskId date => Native.addToDay texts supply store taskId date
  | .removeFromDay taskId date => Native.removeFromDay texts supply store taskId date
  | .createStep taskId title => (Native.createStep supply store taskId title).map Prod.snd
  | .patchStep id patch => (Native.patchStep supply store id patch).map Prod.snd
  | .deleteStep id => Native.deleteStep supply store id
  | .importData bundle mode => Native.importData texts supply store bundle mode

/-- A request, with the clock reading and the identifiers it draws. -/
structure Request where
  op : LocalOp
  supply : Supply

def Request.perform (texts : Texts) (request : Request) (store : Store) : StoreResult Tx :=
  request.op.perform texts request.supply store

/-- The store takes requests, and emits the rows it appends to the outbox. -/
def localRuns (texts : Texts) : Machine Store Request OutboxRow where
  step store request :=
    match request.perform texts store with
    | .ok tx => tx.store
    | .error _ => store
  emit store request :=
    match request.perform texts store with
    | .ok tx => tx.appended
    | .error _ => []

end ShishiTodo.Native
