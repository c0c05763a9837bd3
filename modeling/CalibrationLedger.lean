import CalibrationLedger.Advance
import CalibrationLedger.Audit.Acknowledgements
import CalibrationLedger.Audit.Boundaries
import CalibrationLedger.Audit.Completion
import CalibrationLedger.Audit.Conflicts
import CalibrationLedger.Audit.Creations
import CalibrationLedger.Audit.Displays
import CalibrationLedger.Audit.Draining
import CalibrationLedger.Audit.Mirrors
import CalibrationLedger.Audit.Settlements
import CalibrationLedger.Binding
import CalibrationLedger.Chain
import CalibrationLedger.Completeness
import CalibrationLedger.Encoding
import CalibrationLedger.EventFields
import CalibrationLedger.Idempotency
import CalibrationLedger.Lineage
import CalibrationLedger.Offline
import CalibrationLedger.Refusals
import CalibrationLedger.Paging
import CalibrationLedger.Positions
import CalibrationLedger.Records
import CalibrationLedger.Soundness
import CalibrationLedger.Tamper
import CalibrationLedger.Twins
import CalibrationLedger.VerifierErrors
import CalibrationLedger.Waiting
