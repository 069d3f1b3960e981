import RedisSync.Basic
import RedisSync.Base64
import RedisSync.Fetch
import RedisSync.Strings
import RedisSync.Url
import RedisSync.Connect
import RedisSync.Cycle
import RedisSync.Jobs
import RedisSync.Service
import RedisSync.Delivery
import RedisSync.Fingerprint
import RedisSync.Provenance
import RedisSync.Standalone
import RedisSync.Sequential
import RedisSync.Cron.Parser
import RedisSync.Cron.Schedule
import RedisSync.Cron.Ranges
