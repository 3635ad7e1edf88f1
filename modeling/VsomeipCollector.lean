import VsomeipCollector.Schedules
import VsomeipCollector.StaleSlots
import VsomeipCollector.Conservation
import VsomeipCollector.Lookup
import VsomeipCollector.Stop
import VsomeipCollector.Duties
import VsomeipCollector.HookTable
import VsomeipCollector.Attribution
import VsomeipCollector.Eviction
import VsomeipCollector.Operations
import VsomeipCollector.Traffic
import VsomeipCollector.HookCounters
import VsomeipCollector.SendResult
import VsomeipCollector.Names
import VsomeipCollector.EventLines
import VsomeipCollector.Conversations
import VsomeipCollector.Summary
import VsomeipCollector.Selection
import VsomeipCollector.WireHeader
import VsomeipCollector.Dispatch
import VsomeipCollector.Intervals
import VsomeipCollector.Merge
import VsomeipCollector.Accounts
import VsomeipCollector.Lifecycle
import VsomeipCollector.Latencies
import VsomeipCollector.Monitor
import VsomeipCollector.Symbols
