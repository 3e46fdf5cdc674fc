import WorkflowSketch.Lib.FirstRepeat
import WorkflowSketch.Lib.Recurrent
import WorkflowSketch.Lib.Transact
import WorkflowSketch.Lib.Interleave
import WorkflowSketch.Lib.Simulate
import WorkflowSketch.Lib.Table
import WorkflowSketch.Lib.BigDecimal
import WorkflowSketch.WorkFlow
import WorkflowSketch.SimpleInvoice.Entity
import WorkflowSketch.SimpleInvoice.Repository
import WorkflowSketch.Transition
import WorkflowSketch.Ends
import WorkflowSketch.SimpleInvoice.Slide
import WorkflowSketch.SimpleInvoice.Resting
import WorkflowSketch.SimpleInvoice.Task
import WorkflowSketch.SimpleInvoice.Action
import WorkflowSketch.SimpleInvoice.Invariant
import WorkflowSketch.SimpleInvoice.GuardOrder
import WorkflowSketch.SimpleInvoice.History
import WorkflowSketch.SimpleInvoice.Reinitialise
import WorkflowSketch.SimpleInvoice.Store
import WorkflowSketch.SimpleInvoice.TaskAction
import WorkflowSketch.SimpleInvoice.Assignee
import WorkflowSketch.SimpleInvoice.Interleaving
import WorkflowSketch.SimpleInvoice.Attainable
import WorkflowSketch.SimpleInvoice.Graph
import WorkflowSketch.SimpleInvoice.Projection
import WorkflowSketch.SimpleInvoice.Embedding
import WorkflowSketch.SimpleInvoice.Refinement
import WorkflowSketch.SimpleInvoice.Normal
import WorkflowSketch.SimpleInvoice.Worklist
import WorkflowSketch.SimpleInvoice.Audit
import WorkflowSketch.SimpleInvoice.Clock
import WorkflowSketch.SimpleObject.Entity
import WorkflowSketch.SimpleObject.Slide
import WorkflowSketch.SimpleObject.Store
import WorkflowSketch.SimpleObject.Task
import WorkflowSketch.SimpleObject.Menu
import WorkflowSketch.SimpleObject.Order
import WorkflowSketch.SimpleObject.Life
